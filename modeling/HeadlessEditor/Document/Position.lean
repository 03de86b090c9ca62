import HeadlessEditor.Text.Basic

/-!
Places in a document, as line and column and as an offset, and the walk over the lines that turns
one into the other. Nothing here fails: what lies outside the document is moved to the nearest
place inside. The last line has no terminator; every other line is one longer than its text.
-/

namespace HeadlessEditor

/-- A place in a document. The two ways of naming it agree for places taken from a document. -/
structure Position where
  line : Nat
  column : Nat
  offset : Nat
  deriving DecidableEq, Repr, Inhabited

namespace Position

def zero : Position := ⟨0, 0, 0⟩

/-- By line, then by column, then by offset. -/
def order (a b : Position) : Ordering :=
  (compare a.line b.line).then ((compare a.column b.column).then (compare a.offset b.offset))

instance : LE Position := ⟨fun a b => order a b ≠ .gt⟩
instance : LT Position := ⟨fun a b => order a b = .lt⟩
instance (a b : Position) : Decidable (a ≤ b) := inferInstanceAs (Decidable (_ ≠ _))
instance (a b : Position) : Decidable (a < b) := inferInstanceAs (Decidable (_ = _))

/-- The place at `offset`, found by walking over the lines. -/
def ofOffset (offset : Nat) : List Text → Position
  | [] => zero
  | [line] => ⟨0, min offset line.length, min offset line.length⟩
  | line :: rest =>
    if offset ≤ line.length then ⟨0, offset, offset⟩
    else
      let inRest := ofOffset (offset - (line.length + 1)) rest
      ⟨inRest.line + 1, inRest.column, line.length + 1 + inRest.offset⟩

/-- The offset of a line and column, found by walking over the lines. Columns stop at the end of
their line; a line past the last one stands for the end of the document. -/
def offsetOf (line column : Nat) : List Text → Nat
  | [] => 0
  | [last] => if line = 0 then min column last.length else last.length
  | first :: rest =>
    if line = 0 then min column first.length
    else first.length + 1 + offsetOf (line - 1) column rest

def clamp (line column : Nat) (lines : List Text) : Position :=
  ofOffset (offsetOf line column lines) lines

end Position

structure TextRange where
  start : Position
  stop : Position
  deriving DecidableEq, Repr, Inhabited

namespace TextRange

def collapsed (position : Position) : TextRange := ⟨position, position⟩

/-- The same stretch with the earlier place first. -/
def normalized (range : TextRange) : TextRange :=
  if range.start ≤ range.stop then range else ⟨range.stop, range.start⟩

/-- Whether both ends name the same line and column. -/
def isEmpty (range : TextRange) : Bool :=
  range.start.line == range.stop.line && range.start.column == range.stop.column

def isSingleLine (range : TextRange) : Bool := range.start.line == range.stop.line

/-- Offsets of the earlier and the later end. -/
def offsets (range : TextRange) : Nat × Nat :=
  (range.normalized.start.offset, range.normalized.stop.offset)

def lines (range : TextRange) : Nat × Nat :=
  (range.normalized.start.line, range.normalized.stop.line)

end TextRange

end HeadlessEditor
