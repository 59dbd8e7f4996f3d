/-!
# Decimal digits

The natural number that a row of decimal digits stands for.
-/

namespace Telltale.Text

/-- The value of a decimal digit. -/
def digitValue (c : Char) : Nat := c.toNat - '0'.toNat

/-- The natural number of decimal digits, the most significant one first. -/
def natOfDigits (cs : List Char) : Nat := cs.foldl (fun n c => n * 10 + digitValue c) 0

end Telltale.Text
