/-!
# Identifiers

Signals and rules are named by short identifiers: lower-case letters and digits, joined by dashes or
underscores.

* `Identifier.isValid` is the form of an identifier.
* `Identifier.slug` derives one from a title: the runs of letters and digits, in lower case, joined
  by dashes and cut at the greatest length.
-/

namespace Telltale.Identifier

/-- The greatest length of an identifier. -/
def maxLength : Nat := 64

/-- Whether a character is a lower-case letter or a digit. -/
def isWordChar (c : Char) : Bool := c.isLower || c.isDigit

/-- Whether a character may stand inside an identifier. -/
def isInnerChar (c : Char) : Bool := isWordChar c || c == '-' || c == '_'

/-- Whether characters form an identifier: not too many, all allowed inside, and a letter or digit
at both ends. -/
def isValidList (cs : List Char) : Bool :=
  cs.length ≤ maxLength && cs.all isInnerChar && cs.head?.any isWordChar &&
    cs.getLast?.any isWordChar

/-- Whether a text is an identifier. -/
def isValid (s : String) : Bool := isValidList s.toList

/-- What is said of a text that is no identifier. -/
def invalidMessage (s : String) : String :=
  "invalid id '" ++ s ++ "': must be lowercase alphanumeric with hyphens or underscores"

/-! ### Slugs -/

/-- The letters and digits in lower case with a dash between runs of them. `pending` tells that
something else stood since the last letter or digit, and `started` that there was one. -/
def dashed (started pending : Bool) : List Char → List Char
  | [] => []
  | c :: rest =>
    if c.isAlphanum then
      if started && pending then '-' :: c.toLower :: dashed true false rest
      else c.toLower :: dashed true false rest
    else dashed started true rest

/-- The characters without the dashes at the end. -/
def dropFinalDashes (cs : List Char) : List Char := (cs.reverse.dropWhile (· == '-')).reverse

/-- The characters of the slug of a title. -/
def slugList (title : List Char) : List Char :=
  dropFinalDashes ((dashed false false title).take maxLength)

/-- The identifier derived from a title; empty if the title has no letter or digit. -/
def slug (title : String) : String := String.ofList (slugList title.toList)

end Telltale.Identifier
