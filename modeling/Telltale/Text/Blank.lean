/-!
# Blank characters

The characters with the Unicode property White_Space, and texts that consist of them.
-/

namespace Telltale.Text

/-- The ranges of blank characters, by their first and last code points. -/
def blankRanges : List (Nat × Nat) :=
  [(0x9, 0xD), (0x20, 0x20), (0x85, 0x85), (0xA0, 0xA0), (0x1680, 0x1680), (0x2000, 0x200A),
   (0x2028, 0x2029), (0x202F, 0x202F), (0x205F, 0x205F), (0x3000, 0x3000)]

/-- Whether a character is blank. -/
def isBlank (c : Char) : Bool := blankRanges.any fun (lo, hi) => lo ≤ c.toNat && c.toNat ≤ hi

/-- Whether a text has no character but blanks. -/
def isBlankText (s : String) : Bool := s.toList.all isBlank

/-- The characters without the blanks in front. -/
def dropBlanks (cs : List Char) : List Char := cs.dropWhile isBlank

/-- The text without the blanks at its two ends. -/
def trim (s : String) : String :=
  String.ofList (dropBlanks (dropBlanks s.toList).reverse).reverse

/-- The text without the blanks at its end. -/
def trimEnd (s : String) : String := String.ofList (dropBlanks s.toList.reverse).reverse

end Telltale.Text
