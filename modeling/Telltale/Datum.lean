import Telltale.Json

/-!
# Document data

What a document says before it is given a meaning: a tree of typed scalars, lists and mappings.
Mappings keep their entries as written, so that repeated keys can still be refused, and a key can
be any datum. A part that cannot be read (a number beyond every double, say) is `unreadable`, which
matters only where that part is looked at.

* `Datum.toJson?` and `Datum.ofJson` go from data to values and back.
* `Datum.record?` takes a mapping or a list apart into the named fields of a record, and
  `Record.field?` and its variants read one of them.
-/

namespace Telltale

/-- A part of a document. -/
inductive Datum where
  | null
  | bool (b : Bool)
  | number (n : Number)
  | infinity (negative : Bool)
  | nan
  | string (s : String)
  | list (items : List Datum)
  | mapping (entries : List (Datum × Datum))
  | unreadable

namespace Datum

instance : Inhabited Datum := ⟨.null⟩

/-! ### Data and values -/

mutual

/-- The datum of a value. -/
def ofJson : Json → Datum
  | .null => .null
  | .bool b => .bool b
  | .number n => .number n
  | .string s => .string s
  | .array items => .list (ofItems items)
  | .object fields => .mapping (ofFields fields)

/-- The data of the items of an array. -/
def ofItems : List Json → List Datum
  | [] => []
  | v :: rest => ofJson v :: ofItems rest

/-- The entries of the fields of an object. -/
def ofFields : List (String × Json) → List (Datum × Datum)
  | [] => []
  | (name, v) :: rest => (.string name, ofJson v) :: ofFields rest

end

mutual

/-- The value of a datum. Keys have to be strings, of two entries with one key the later one stays,
and reals that are not finite become null. -/
def toJson? : Datum → Option Json
  | .null => some .null
  | .bool b => some (.bool b)
  | .number n => some (.number n)
  | .infinity _ => some .null
  | .nan => some .null
  | .string s => some (.string s)
  | .list items => (toItems? items).map .array
  | .mapping entries => (toFields? entries).map Json.ofPairs
  | .unreadable => none

/-- The values of the items of a list. -/
def toItems? : List Datum → Option (List Json)
  | [] => some []
  | d :: rest => do
    let v ← toJson? d
    let vs ← toItems? rest
    some (v :: vs)

/-- The fields of the entries of a mapping, in the order written. -/
def toFields? : List (Datum × Datum) → Option (List (String × Json))
  | [] => some []
  | (.string name, d) :: rest => do
    let v ← toJson? d
    let vs ← toFields? rest
    some ((name, v) :: vs)
  | _ :: _ => none

end

/-! ### Nesting -/

mutual

/-- How deeply lists and mappings are nested. -/
def depth : Datum → Nat
  | .list items => depthItems items + 1
  | .mapping entries => depthEntries entries + 1
  | _ => 0

/-- The greatest depth of the items. -/
def depthItems : List Datum → Nat
  | [] => 0
  | d :: rest => max (depth d) (depthItems rest)

/-- The greatest depth of the values of the entries. -/
def depthEntries : List (Datum × Datum) → Nat
  | [] => 0
  | (_, d) :: rest => max (depth d) (depthEntries rest)

end

/-! ### Readability -/

mutual

/-- Whether every part can be read. -/
def isReadable : Datum → Bool
  | .list items => areReadable items
  | .mapping entries => haveReadable entries
  | .unreadable => false
  | _ => true

/-- Whether every item can be read. -/
def areReadable : List Datum → Bool
  | [] => true
  | d :: rest => isReadable d && areReadable rest

/-- Whether every key and value can be read. -/
def haveReadable : List (Datum × Datum) → Bool
  | [] => true
  | (key, d) :: rest => isReadable key && isReadable d && haveReadable rest

end

/-! ### Scalars -/

/-- The text of a string. -/
def string? : Datum → Option String
  | .string s => some s
  | _ => none

/-- A natural number below a bound, from an integer. -/
def natBelow? (bound : Nat) : Datum → Option Nat
  | .number (.integer n _) => if 0 ≤ n && n.toNat < bound then some n.toNat else none
  | _ => none

/-- A real, from a number of either kind. -/
def real? : Datum → Option Extended
  | .number n => some (.finite n.toDouble)
  | .infinity negative => some (.infinity negative)
  | .nan => some .nan
  | _ => none

/-- The items of a list. -/
def items? : Datum → Option (List Datum)
  | .list items => some items
  | _ => none

/-- A list whose items are all read alike. -/
def listOf? (read : Datum → Option α) (d : Datum) : Option (List α) := d.items?.bind (·.mapM read)

/-- The name of a table's entry with its value. -/
def pairOf? (read : Datum → Option α) : Datum × Datum → Option (String × α)
  | (.string name, d) => (read d).map fun v => (name, v)
  | _ => none

/-- A table, from a mapping whose keys are strings; of two entries with one key the later one
stays. -/
def table? (read : Datum → Option α) : Datum → Option (Table α)
  | .mapping entries => (entries.mapM (pairOf? read)).map Table.ofPairs
  | _ => none

/-- One of a list of alternatives, from its name. The name can also be the only key of a mapping
to nothing; where the mapping was read ahead, an empty mapping counts as nothing too. -/
def choice? (ofName? : String → Option α) (ahead : Bool) : Datum → Option α
  | .string s => ofName? s
  | .mapping [(.string s, .null)] => ofName? s
  | .mapping [(.string s, .mapping [])] => if ahead then ofName? s else none
  | _ => none

end Datum

/-! ### Alternatives with fields -/

namespace Datum

/-- Splits the entries of a mapping into those whose key is the given text and the others. -/
def splitKey (key : String) : List (Datum × Datum) → List Datum × List (Datum × Datum)
  | [] => ([], [])
  | (.string k, d) :: rest =>
    let (found, others) := splitKey key rest
    if k = key then (d :: found, others) else (found, (.string k, d) :: others)
  | e :: rest =>
    let (found, others) := splitKey key rest
    (found, e :: others)

/-- The tag of an alternative and its fields: the tag is the value of a key that occurs once, or the
first item of a list. -/
def tagged? (key : String) : Datum → Option (Datum × Datum)
  | .mapping entries =>
    match splitKey key entries with
    | ([tag], others) => some (tag, .mapping others)
    | _ => none
  | .list (tag :: items) => some (tag, .list items)
  | _ => none

/-- The tag among a list of names. Where it was read ahead, a whole number is a position in the
list. -/
def tagName? (names : List String) (ahead : Bool) : Datum → Option String
  | .string s => if names.contains s then some s else none
  | .number (.integer n _) => if ahead && 0 ≤ n then names[n.toNat]? else none
  | _ => none

end Datum

/-! ### Records -/

/-- The fields of a record that a document gives, each once. -/
abbrev Record := List (String × Datum)

namespace Datum

/-- The field that a key stands for: a string names it, and a whole number is its position. The
outer option is empty for a key that can be neither. -/
def fieldName? (names : List String) : Datum → Option (Option String)
  | .string s => some (if names.contains s then some s else none)
  | .number (.integer n _) => if 0 ≤ n then some names[n.toNat]? else none
  | _ => none

/-- The fields among the entries of a mapping. A field given twice is refused; a key that is no
field is passed over, or refused in a closed record. -/
def fields? (names : List String) (closed : Bool) : List (Datum × Datum) → Option Record
  | [] => some []
  | (key, d) :: rest => do
    let name ← fieldName? names key
    let others ← fields? names closed rest
    match name with
    | some n => if (others.lookup n).isSome then none else some ((n, d) :: others)
    | none => if closed then none else some others

/-- The fields of a record, from a mapping or from a list of them in order. -/
def record? (names : List String) (closed : Bool) : Datum → Option Record
  | .mapping entries => fields? names closed entries
  | .list items => if items.length ≤ names.length then some (names.zip items) else none
  | _ => none

end Datum

namespace Record

/-- A field that has to be there. -/
def field? (r : Record) (name : String) (read : Datum → Option α) : Option α :=
  (r.lookup name).bind read

/-- A field with a value for when it is not there. -/
def fieldOr? (r : Record) (name : String) (default : α) (read : Datum → Option α) : Option α :=
  match r.lookup name with
  | none => some default
  | some d => read d

/-- A field that may be missing or null. -/
def optional? (r : Record) (name : String) (read : Datum → Option α) : Option (Option α) :=
  match r.lookup name with
  | none => some none
  | some .null => some none
  | some d => (read d).map some

end Record

end Telltale
