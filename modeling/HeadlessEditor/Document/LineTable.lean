import HeadlessEditor.Document.Position

/-!
A table of where each line starts. It answers the questions of `Position.ofOffset` and
`Position.offsetOf` by look-up and halving instead of a walk.
-/

namespace HeadlessEditor

/-- Start offset and length of every line, and the length of the whole document. -/
structure LineTable where
  starts : Array Nat
  lengths : Array Nat
  total : Nat
  deriving DecidableEq, Repr, Inhabited

namespace LineTable

/-- Start offsets of `lines`, the first of them at `offset`. -/
def startsFrom (offset : Nat) : List Text → List Nat
  | [] => []
  | line :: rest => offset :: startsFrom (offset + line.length + 1) rest

/-- Number of characters of a document, the newlines between its lines included. -/
def totalLength : List Text → Nat
  | [] => 0
  | [line] => line.length
  | line :: rest => line.length + 1 + totalLength rest

/-- The table of a document; no lines count as one empty line. -/
def ofLines (lines : List Text) : LineTable where
  starts := if lines.isEmpty then #[0] else (startsFrom 0 lines).toArray
  lengths := if lines.isEmpty then #[0] else (lines.map List.length).toArray
  total := totalLength lines

def lineCount (table : LineTable) : Nat := table.starts.size

/-- Offset of the first character of a line, of the last line for lines past the end. -/
def lineStart (table : LineTable) (line : Nat) : Nat :=
  table.starts.getD (min line (table.starts.size - 1)) 0

/-- Length of a line without its terminator, zero past the end. -/
def lineLength (table : LineTable) (line : Nat) : Nat := table.lengths.getD line 0

/-- The first index in `[lo, hi)` whose start lies after `offset`, or `hi`. -/
def firstAfter (starts : Array Nat) (offset : Nat) : Nat → Nat → Nat → Nat
  | 0, lo, _ => lo
  | steps + 1, lo, hi =>
    if lo < hi then
      let middle := (lo + hi) / 2
      if starts.getD middle 0 ≤ offset then firstAfter starts offset steps (middle + 1) hi
      else firstAfter starts offset steps lo middle
    else lo

def lineAt (table : LineTable) (offset : Nat) : Nat :=
  firstAfter table.starts offset table.starts.size 0 table.starts.size - 1

def positionOf (table : LineTable) (offset : Nat) : Position :=
  let offset := min offset table.total
  let line := table.lineAt offset
  let start := table.lineStart line
  let column := min (offset - start) (table.lineLength line)
  ⟨line, column, start + column⟩

def offsetOf (table : LineTable) (line column : Nat) : Nat :=
  if line < table.lineCount then table.lineStart line + min column (table.lineLength line)
  else table.total

def clamp (table : LineTable) (line column : Nat) : Position :=
  table.positionOf (table.offsetOf line column)

end LineTable

end HeadlessEditor
