import HeadlessEditor.Cursor.Basic
import HeadlessEditor.Document.Buffer
import HeadlessEditor.RecencyCache
import HeadlessEditor.Text.Segmentation

/-!
The cursor of an editor. Each operation computes a next state from places of the current buffer and
hands it to `Cursor.become`, which drops an empty selection and reports what changed. The caret
of a document that is left is remembered, for a bounded number of documents.
-/

namespace HeadlessEditor

/-- Documents whose caret is remembered unless the settings say otherwise. -/
def defaultPositionCacheCapacity : Nat := 50

structure Cursor where
  state : CursorState
  remembered : RecencyCache DocumentId Position

namespace Cursor

def new (capacity : Nat) : Cursor := ⟨.start, .new capacity⟩

def caret (cursor : Cursor) : Position := cursor.state.caret

/-- The selection, never an empty one. -/
def selection (cursor : Cursor) : Option Selection := cursor.state.selection

/-- Takes on a state, an empty selection left out. -/
def become (cursor : Cursor) (next : CursorState) : Cursor × CursorChange :=
  let next := { next with selection := next.selection.filter (!·.isEmpty) }
  ({ cursor with state := next },
    ⟨next.caret != cursor.state.caret, next.selection != cursor.state.selection⟩)

def setCaret (cursor : Cursor) (position : Position) (buffer : Buffer) : Cursor × CursorChange :=
  cursor.become (.ofCaret (buffer.clampPosition position))

def setCaretOffset (cursor : Cursor) (offset : Nat) (buffer : Buffer) : Cursor × CursorChange :=
  cursor.become (.ofCaret (buffer.positionOf offset))

/-- Selects from `anchor` to `active`, where the caret goes. -/
def setSelection (cursor : Cursor) (anchor active : Position) (buffer : Buffer) :
    Cursor × CursorChange :=
  let anchor := buffer.clampPosition anchor
  let active := buffer.clampPosition active
  cursor.become ⟨active, some ⟨anchor, active⟩, none⟩

/-- Drops the selection and ends a run of vertical moves. -/
def clearSelection (cursor : Cursor) : Cursor × CursorChange :=
  cursor.become (.ofCaret cursor.caret)

def selectAll (cursor : Cursor) (buffer : Buffer) : Cursor × CursorChange :=
  cursor.setSelection .zero (buffer.positionOf buffer.length) buffer

section

variable (segmentation : Segmentation)

def stepLeft (caret : Position) (buffer : Buffer) : Position :=
  if caret.column = 0 then
    if caret.line = 0 then caret else buffer.positionAt (caret.line - 1) maxOffset
  else
    let line := (buffer.line? caret.line).getD []
    buffer.positionAt caret.line (segmentation.previousBoundary line caret.column)

def stepRight (caret : Position) (buffer : Buffer) : Position :=
  if buffer.lineLength caret.line ≤ caret.column then
    if buffer.lineCount ≤ caret.line + 1 then caret else buffer.positionAt (caret.line + 1) 0
  else
    let line := (buffer.line? caret.line).getD []
    buffer.positionAt caret.line (segmentation.nextBoundary line caret.column)

/-- The line `shift` below `line`, or the last line of the document on the way there. -/
def shiftLine (line : Nat) (shift : Int) (buffer : Buffer) : Nat :=
  min ((line : Int) + shift).toNat (buffer.lineCount - 1)

/-- Goes `shift` lines down in the desired column; a move that stays on its line stays put. -/
def stepVertical (caret : Position) (desired : Nat) (shift : Int) (buffer : Buffer) : Position :=
  let line := shiftLine caret.line shift buffer
  if line = caret.line then caret else buffer.positionAt line desired

/-- Where a motion takes the caret, and the column that later vertical moves return to. -/
def destination (state : CursorState) (motion : Motion) (buffer : Buffer) :
    Position × Option Nat :=
  let caret := state.caret
  match motion with
  | .left => (stepLeft segmentation caret buffer, none)
  | .right => (stepRight segmentation caret buffer, none)
  | .lineStart => (buffer.positionAt caret.line 0, none)
  | .lineEnd => (buffer.positionAt caret.line maxOffset, none)
  | .documentStart => (.zero, none)
  | .documentEnd => (buffer.positionOf buffer.length, none)
  | .up | .down | .lines _ =>
    let desired := state.desiredColumn.getD caret.column
    (stepVertical caret desired (motion.lineShift?.getD 0) buffer, some desired)

/-- The end of the selection that a plain sideways motion goes to. -/
def collapseTarget? (state : CursorState) (motion : Motion) : Option Position :=
  state.selection.bind fun selection =>
    match motion with
    | .left => some selection.range.start
    | .right => some selection.range.stop
    | _ => none

/-- Moves the caret; with `extend` the selection grows from its anchor or from the old caret. -/
def move (cursor : Cursor) (motion : Motion) (extend : Bool) (buffer : Buffer) :
    Cursor × CursorChange :=
  let (target, desired) := destination segmentation cursor.state motion buffer
  if extend then
    let anchor := (cursor.selection.map (·.anchor)).getD cursor.caret
    cursor.become ⟨target, some ⟨anchor, target⟩, desired⟩
  else
    match collapseTarget? cursor.state motion with
    | some edge => cursor.become (.ofCaret edge)
    | none => cursor.become ⟨target, none, desired⟩

end

/-- Finds caret and selection again by their offsets after the whole text was replaced. -/
def rederive (cursor : Cursor) (buffer : Buffer) : Cursor × CursorChange :=
  cursor.become
    { caret := buffer.positionOf cursor.caret.offset
      selection := cursor.selection.map fun selection =>
        ⟨buffer.positionOf selection.anchor.offset, buffer.positionOf selection.active.offset⟩
      desiredColumn := none }

/-- Carries caret and selection across an edit; `buffer` holds the new text. -/
def mapThroughEdit (cursor : Cursor) (edit : TextEdit) (buffer : Buffer) :
    Cursor × CursorChange :=
  let carry (position : Position) := buffer.positionOf (edit.mapOffset position.offset .after)
  let caret := carry cursor.caret
  cursor.become
    { caret
      selection := cursor.selection.map fun selection => ⟨carry selection.anchor, caret⟩
      desiredColumn := none }

/-- Remembers the caret for a document. The flag tells whether there was anything new to it. -/
def remember (cursor : Cursor) (document : DocumentId) : Cursor × Bool :=
  if cursor.remembered.peek? document = some cursor.caret then (cursor, false)
  else ({ cursor with remembered := cursor.remembered.put document cursor.caret }, true)

def remembered? (cursor : Cursor) (document : DocumentId) : Option Position :=
  cursor.remembered.peek? document

/-- Changes documents: remembers the caret of the one left, and goes to the caret remembered for
the one entered, or to its start. -/
def swapDocument (cursor : Cursor) (outgoing : Option DocumentId) (incoming : DocumentId)
    (buffer : Buffer) : Cursor × CursorChange :=
  let cursor :=
    match outgoing with
    | some document => (cursor.remember document).1
    | none => cursor
  let caret := ((cursor.remembered? incoming).map buffer.clampPosition).getD .zero
  { cursor with remembered := cursor.remembered.touch incoming }.become (.ofCaret caret)

end Cursor

end HeadlessEditor
