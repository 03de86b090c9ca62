import HeadlessEditor.Document.LineTable
import HeadlessEditor.Text.Edit
import HeadlessEditor.Text.LineEnding

/-!
The text of a document with its lines, its line table and a version that grows with every change.
`Buffer.write` is the only writer of the text, so lines and table always belong to it.
-/

namespace HeadlessEditor

/-- Name of a document, mostly its path. -/
abbrev DocumentId := String

/-- A document's text, without carriage returns before newlines. -/
structure Buffer where
  content : Text
  lines : List Text
  table : LineTable
  ending : LineEnding
  version : Nat
  deriving DecidableEq, Repr

namespace Buffer

/-- A document as loaded: its line ending is noted and taken out. -/
def load (text : Text) : Buffer :=
  let content := LineEnding.normalize text
  { content
    lines := content.lines
    table := LineTable.ofLines content.lines
    ending := LineEnding.detect text
    version := 0 }

def empty : Buffer := load []

/-- Puts new text, already free of carriage returns before newlines, into the buffer. -/
def write (buffer : Buffer) (content : Text) : Buffer :=
  { buffer with
    content
    lines := content.lines
    table := LineTable.ofLines content.lines
    version := buffer.version + 1 }

def setContent (buffer : Buffer) (text : Text) : Buffer :=
  buffer.write (LineEnding.normalize text)

def setEnding (buffer : Buffer) (ending : LineEnding) : Buffer := { buffer with ending }

def textForSaving (buffer : Buffer) : Text := buffer.ending.expand buffer.content

/-- A line without its terminator. -/
def line? (buffer : Buffer) (index : Nat) : Option Text := buffer.lines[index]?

def lineCount (buffer : Buffer) : Nat := buffer.lines.length

/-- Length of a line, zero past the end. -/
def lineLength (buffer : Buffer) (line : Nat) : Nat := buffer.table.lineLength line

/-- Number of characters, newlines included. -/
def length (buffer : Buffer) : Nat := buffer.table.total

def positionOf (buffer : Buffer) (offset : Nat) : Position := buffer.table.positionOf offset

def offsetOf (buffer : Buffer) (line column : Nat) : Nat := buffer.table.offsetOf line column

def positionAt (buffer : Buffer) (line column : Nat) : Position := buffer.table.clamp line column

/-- The place that a position names by its line and column, whatever its offset says. -/
def clampPosition (buffer : Buffer) (position : Position) : Position :=
  buffer.positionAt position.line position.column

/-- Both ends of a range as places of this document, in the same order. -/
def clampRange (buffer : Buffer) (range : TextRange) : TextRange :=
  ⟨buffer.clampPosition range.start, buffer.clampPosition range.stop⟩

def rangeOf (buffer : Buffer) (start stop : Nat) : TextRange :=
  ⟨buffer.positionOf start, buffer.positionOf stop⟩

/-- Two offsets moved into the document, the smaller one first. -/
def clampSpan (buffer : Buffer) (start stop : Nat) : Nat × Nat :=
  let a := min start buffer.length
  let b := min stop buffer.length
  (min a b, max a b)

def textIn (buffer : Buffer) (start stop : Nat) : Text :=
  let span := buffer.clampSpan start stop
  buffer.content.slice span.1 span.2

/-- Replaces the text between two offsets, given in either order. Replacing a text by itself
changes nothing, the version included. -/
def replace (buffer : Buffer) (start stop : Nat) (text : Text) : Buffer × TextEdit :=
  let span := buffer.clampSpan start stop
  let edit : TextEdit :=
    ⟨span.1, buffer.content.slice span.1 span.2, LineEnding.normalize text⟩
  if edit.isNoop then (buffer, edit)
  else (buffer.write (buffer.content.splice span.1 span.2 edit.inserted), edit)

def insert (buffer : Buffer) (offset : Nat) (text : Text) : Buffer × TextEdit :=
  buffer.replace offset offset text

def delete (buffer : Buffer) (start stop : Nat) : Buffer × TextEdit :=
  buffer.replace start stop []

end Buffer

end HeadlessEditor
