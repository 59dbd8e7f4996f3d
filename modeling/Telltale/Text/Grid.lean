import Telltale.Text.Blank

/-!
# Grids

Rows of cells as text: every column is as wide as its widest cell, two spaces part the columns, and
a line of dashes stands below the header.
-/

namespace Telltale.Text

/-- A text with spaces after it up to a width, in characters. -/
def padEnd (width : Nat) (s : String) : String :=
  s ++ String.ofList (List.replicate (width - s.length) ' ')

/-- Lines with a line feed after each. -/
def lines (texts : List String) : String := String.join (texts.map (· ++ "\n"))

/-- A header and the rows under it. -/
structure Grid where
  header : List String
  rows : List (List String)

namespace Grid

/-- The greater width of two in each column. -/
def widen : List Nat → List String → List Nat
  | width :: widths, cell :: cells => max width cell.length :: widen widths cells
  | widths, [] => widths
  | [], _ => []

/-- The widths of the columns of the header. -/
def widths (g : Grid) : List Nat := g.rows.foldl widen (g.header.map String.length)

/-- A row, without the spaces at its end. -/
def rowLine (widths : List Nat) (cells : List String) : String :=
  trimEnd ("  ".intercalate (List.zipWith padEnd widths cells))

/-- The line of dashes. -/
def rule (widths : List Nat) : String :=
  "  ".intercalate (widths.map fun w => String.ofList (List.replicate w '-'))

/-- The text of a grid. -/
def text (g : Grid) : String :=
  lines (rowLine g.widths g.header :: rule g.widths :: g.rows.map (rowLine g.widths))

end Grid

end Telltale.Text
