import Telltale.Json

/-!
# The text of values

* `Json.compact` writes a value without any space, as messages and answers quote it.
* `Json.pretty` writes one member a line, two spaces deeper than its parent.

Both write the fields of an object in the order in which the object has them.
-/

namespace Telltale.Json

/-! ### Strings -/

/-- The hexadecimal digit of a number below sixteen, in lower case. -/
def hexDigit (n : Nat) : Char := Nat.digitChar n

/-- A character inside quotes. Only the quote, the backslash and control characters are escaped. -/
def escapeChar (c : Char) : List Char :=
  if c = '"' then ['\\', '"']
  else if c = '\\' then ['\\', '\\']
  else if c = '\n' then ['\\', 'n']
  else if c = '\r' then ['\\', 'r']
  else if c = '\t' then ['\\', 't']
  else if c.toNat = 8 then ['\\', 'b']
  else if c.toNat = 12 then ['\\', 'f']
  else if c.toNat < 32 then
    ['\\', 'u', '0', '0', hexDigit (c.toNat / 16), hexDigit (c.toNat % 16)]
  else [c]

/-- A string in quotes. -/
def quote (s : String) : String :=
  "\"" ++ String.ofList (s.toList.flatMap escapeChar) ++ "\""

/-- The text of a truth value. -/
def boolText (b : Bool) : String := if b then "true" else "false"

/-! ### Compact text -/

mutual

/-- The text of a value without spaces. -/
def compact : Json → String
  | .null => "null"
  | .bool b => boolText b
  | .number n => n.text
  | .string s => quote s
  | .array items => "[" ++ ",".intercalate (compactItems items) ++ "]"
  | .object fields => "\x7b" ++ ",".intercalate (compactFields fields) ++ "\x7d"

/-- The texts of the items of an array. -/
def compactItems : List Json → List String
  | [] => []
  | v :: rest => compact v :: compactItems rest

/-- The texts of the fields of an object. -/
def compactFields : List (String × Json) → List String
  | [] => []
  | (name, v) :: rest => (quote name ++ ":" ++ compact v) :: compactFields rest

end

/-! ### Pretty text -/

/-- Members on lines of their own between two brackets; without members the brackets stand alone. -/
def block (opening closing : String) (depth : Nat) (members : List String) : String :=
  if members.isEmpty then opening ++ closing
  else
    let indent := "\n" ++ String.ofList (List.replicate (2 * depth) ' ')
    opening ++ ",".intercalate (members.map fun m => indent ++ "  " ++ m) ++ indent ++ closing

mutual

/-- The text of a value at a depth, one member a line. -/
def prettyAt (depth : Nat) : Json → String
  | .null => "null"
  | .bool b => boolText b
  | .number n => n.text
  | .string s => quote s
  | .array items => block "[" "]" depth (prettyItems (depth + 1) items)
  | .object fields => block "\x7b" "\x7d" depth (prettyFields (depth + 1) fields)

/-- The texts of the items of an array. -/
def prettyItems (depth : Nat) : List Json → List String
  | [] => []
  | v :: rest => prettyAt depth v :: prettyItems depth rest

/-- The texts of the fields of an object. -/
def prettyFields (depth : Nat) : List (String × Json) → List String
  | [] => []
  | (name, v) :: rest => (quote name ++ ": " ++ prettyAt depth v) :: prettyFields depth rest

end

/-- The text of a value, one member a line. -/
def pretty (v : Json) : String := prettyAt 0 v

end Telltale.Json
