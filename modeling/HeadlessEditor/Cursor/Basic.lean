import HeadlessEditor.Document.Position

/-!
The caret, the selection that hangs on it and the ways of moving it.
-/

namespace HeadlessEditor

/-- A selection from a fixed anchor to the end that moves with the caret. -/
structure Selection where
  anchor : Position
  active : Position
  deriving DecidableEq, Repr, Inhabited

namespace Selection

/-- The selected stretch, its earlier end first. -/
def range (selection : Selection) : TextRange :=
  TextRange.normalized ⟨selection.anchor, selection.active⟩

def isEmpty (selection : Selection) : Bool :=
  selection.anchor.offset == selection.active.offset

/-- Whether the moving end comes first. -/
def isReversed (selection : Selection) : Bool := selection.active < selection.anchor

end Selection

/-- Caret, selection and the column that vertical moves return to. -/
structure CursorState where
  caret : Position
  selection : Option Selection
  desiredColumn : Option Nat
  deriving DecidableEq, Repr, Inhabited

namespace CursorState

def start : CursorState := ⟨.zero, none, none⟩

def ofCaret (caret : Position) : CursorState := ⟨caret, none, none⟩

end CursorState

structure CursorChange where
  moved : Bool
  selectionChanged : Bool
  deriving DecidableEq, Repr, Inhabited

namespace CursorChange

def none : CursorChange := ⟨false, false⟩

def isNone (change : CursorChange) : Bool := !change.moved && !change.selectionChanged

/-- What two steps changed between them. -/
def merge (a b : CursorChange) : CursorChange :=
  ⟨a.moved || b.moved, a.selectionChanged || b.selectionChanged⟩

end CursorChange

inductive Motion where
  /-- One cluster back, from the start of a line to the end of the one above. -/
  | left
  /-- One cluster on, from the end of a line to the start of the one below. -/
  | right
  | up
  | down
  /-- So many lines down, up if negative. -/
  | lines (count : Int)
  | lineStart
  | lineEnd
  | documentStart
  | documentEnd
  deriving DecidableEq, Repr

/-- Lines that a vertical motion goes down; `none` for other motions. -/
def Motion.lineShift? : Motion → Option Int
  | up => some (-1)
  | down => some 1
  | lines count => some count
  | _ => none

end HeadlessEditor
