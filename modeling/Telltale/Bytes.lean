/-!
# Bytes and their lines

What a file holds are bytes, which may be a text in UTF-8 or not. They are cut into lines before
they are read as texts, so that a line which is no text leaves the lines before it as they are.

* `rows` cuts a list, and `Bytes.rows` the bytes of a file.
* `withoutLineEnd` is the text of a line without the characters that end it.
-/

namespace Telltale

/-- Puts a member in front of rows. A feed is a row of its own there. -/
def consRow [DecidableEq α] (feed a : α) : List (List α) → List (List α)
  | [] => [[a]]
  | row :: more => if a = feed then [a] :: row :: more else (a :: row) :: more

/-- The rows of a list. A row ends with a feed, which belongs to it. What follows the last feed is a
row, too, unless there is nothing. -/
def rows [DecidableEq α] (feed : α) (l : List α) : List (List α) := l.foldr (consRow feed) []

/-- The byte that ends a line. It is part of no other character. -/
def lineFeed : UInt8 := 10

/-- The bytes of each line, with what ends it. -/
def Bytes.rows (bytes : ByteArray) : List (List UInt8) := Telltale.rows lineFeed bytes.data.toList

/-- The characters of a line, in reverse, without a line feed at its end and a carriage return
before that. -/
def dropLineEnd : List Char → List Char
  | '\n' :: '\r' :: rest => rest
  | '\n' :: rest => rest
  | line => line

/-- A line without a line feed at its end and a carriage return before that. -/
def withoutLineEnd (line : String) : String :=
  String.ofList (dropLineEnd line.toList.reverse).reverse

end Telltale
