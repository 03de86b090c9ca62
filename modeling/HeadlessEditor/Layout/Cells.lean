import HeadlessEditor.Text.Basic
import HeadlessEditor.Unicode.CellWidth

/-!
Horizontal layout in cells. Characters take none, one or two cells; a tab goes on to the next
multiple of the tab size. The functions take the width of characters as a parameter, with
`Unicode.cellWidth` as the table in use.
-/

namespace HeadlessEditor.Cells

/-- Cells that `c` takes if it starts at cell `cell` of its line. -/
def widthAt (width : Char → Nat) (tabSize : Nat) (c : Char) (cell : Nat) : Nat :=
  if c = '\t' then max tabSize 1 - cell % max tabSize 1 else width c

/-- The cell after a text that starts at cell `cell`, `maxOffset` at most. -/
def advance (width : Char → Nat) (tabSize cell : Nat) (text : Text) : Nat :=
  text.foldl (fun x c => min (x + widthAt width tabSize c x) maxOffset) cell

/-- The cell where a column starts; columns past the end of the line are at its end. -/
def ofColumn (width : Char → Nat) (tabSize : Nat) (line : Text) (column : Nat) : Nat :=
  advance width tabSize 0 (line.take column)

def lineWidth (width : Char → Nat) (tabSize : Nat) (line : Text) : Nat :=
  advance width tabSize 0 line

end HeadlessEditor.Cells
