import HeadlessEditor.Decoration.Store
import HeadlessEditor.Event.Bus
import HeadlessEditor.Settings.Patch
import HeadlessEditor.Text.Grapheme

/-!
The editor: a document with its cursor, decorations and settings, and the listeners to tell of
changes. Every operation first changes the text, then carries cursor and decorations along, and then
announces what changed: content, caret, selection, decorations. What reached whom is kept in a
journal, the latest last.
-/

namespace HeadlessEditor

/-- Name of a document that has none yet. -/
def scratchDocument : DocumentId := "untitled"

structure Editor where
  document : DocumentId
  buffer : Buffer
  cursor : Cursor
  decorations : DecorationStore
  settings : Settings
  bus : EventBus
  journal : List Notice

inductive EditorError where
  | settings (error : SettingsError)
  | decoration (error : DecorationError)
  deriving DecidableEq, Repr

def EditorError.message : EditorError → String
  | settings error => error.message
  | decoration error => error.message

namespace Editor

def new (document : DocumentId) (text : Text) (settings : Settings) : Editor where
  document
  buffer := .load text
  cursor := .new settings.cursor.positionCacheCapacity
  decorations := .empty
  settings
  bus := .empty
  journal := []

/-- An editor on an untitled document, with the settings of one who sets nothing. -/
def scratch (text : Text) : Editor := new scratchDocument text .default

def caret (editor : Editor) : Position := editor.cursor.caret

/-- The selected range, its earlier end first. -/
def selection (editor : Editor) : Option TextRange := editor.cursor.selection.map (·.range)

def selectedText (editor : Editor) : Option Text :=
  editor.selection.map fun range => editor.buffer.textIn range.offsets.1 range.offsets.2

def emit (editor : Editor) (event : Event) : Editor :=
  { editor with journal := editor.journal ++ editor.bus.deliveries event }

/-- Notes that an extension was called. -/
def noteCall (editor : Editor) (extension : String) (phase : Phase) : Editor :=
  { editor with journal := editor.journal ++ [.called extension phase] }

def subscribe (editor : Editor) (kind : EventKind) (listener : Listener) :
    Editor × SubscriptionId :=
  let (bus, id) := editor.bus.subscribe kind listener
  ({ editor with bus }, id)

def unsubscribe (editor : Editor) (id : SubscriptionId) : Editor × Bool :=
  let (bus, found) := editor.bus.unsubscribe id
  ({ editor with bus }, found)

def announceCursor (editor : Editor) (change : CursorChange) : Editor :=
  let editor := if change.moved then editor.emit (.cursor editor.caret) else editor
  if change.selectionChanged then editor.emit (.selection editor.selection) else editor

def announceDecorations (editor : Editor) (changes : List DecorationChange) : Editor :=
  changes.foldl (fun editor change => editor.emit (.decoration change)) editor

/-- Changes to another document: the caret of the old one is remembered, that of the new one comes
back, and the stored decorations go. -/
def openDocument (editor : Editor) (document : DocumentId) (text : Text) : Editor :=
  let buffer := Buffer.load text
  let (cursor, change) := editor.cursor.swapDocument (some editor.document) document buffer
  let cleared := if editor.decorations.size > 0 then [DecorationChange.cleared] else []
  let editor :=
    { editor with document, buffer, cursor, decorations := editor.decorations.clear }
  ((editor.emit (.content document buffer.version none)).announceCursor change).announceDecorations
    cleared

/-- Replaces the whole text; caret, selection and decorations keep their offsets. -/
def setContent (editor : Editor) (text : Text) : Editor :=
  let buffer := editor.buffer.setContent text
  let (cursor, change) := editor.cursor.rederive buffer
  let editor := { editor with buffer, cursor, decorations := editor.decorations.rederive buffer }
  (editor.emit (.content editor.document buffer.version none)).announceCursor change

def editOffsets (editor : Editor) (start stop : Nat) (text : Text) : Editor :=
  let (buffer, edit) := editor.buffer.replace start stop text
  if edit.isNoop then editor
  else
    let (cursor, change) := editor.cursor.mapThroughEdit edit buffer
    let (decorations, removed) := editor.decorations.mapThroughEdit edit buffer
    let editor := { editor with buffer, cursor, decorations }
    ((editor.emit (.content editor.document buffer.version (some edit))).announceCursor
      change).announceDecorations (removed.map .removed)

def replace (editor : Editor) (range : TextRange) (text : Text) : Editor :=
  let span := (editor.buffer.clampRange range).offsets
  editor.editOffsets span.1 span.2 text

def insert (editor : Editor) (place : Position) (text : Text) : Editor :=
  let offset := (editor.buffer.clampPosition place).offset
  editor.editOffsets offset offset text

def delete (editor : Editor) (range : TextRange) : Editor := editor.replace range []

/-- Types text: over the selection, or at the caret. -/
def typeText (editor : Editor) (text : Text) : Editor :=
  match editor.selection with
  | some range => editor.replace range text
  | none => editor.editOffsets editor.caret.offset editor.caret.offset text

/-- Deletes the selection, or the cluster or line break before the caret. -/
def deleteBackward (editor : Editor) : Editor :=
  match editor.selection with
  | some range => editor.delete range
  | none =>
    let caret := editor.caret
    if caret.offset = 0 then editor
    else
      let start :=
        if caret.column = 0 then caret.offset - 1
        else
          let line := (editor.buffer.line? caret.line).getD []
          caret.offset - caret.column + Grapheme.segmentation.previousBoundary line caret.column
      editor.editOffsets start caret.offset []

/-- Deletes the selection, or the cluster or line break after the caret. -/
def deleteForward (editor : Editor) : Editor :=
  match editor.selection with
  | some range => editor.delete range
  | none =>
    let caret := editor.caret
    if editor.buffer.length ≤ caret.offset then editor
    else
      let stop :=
        if editor.buffer.lineLength caret.line ≤ caret.column then caret.offset + 1
        else
          let line := (editor.buffer.line? caret.line).getD []
          caret.offset - caret.column + Grapheme.segmentation.nextBoundary line caret.column
      editor.editOffsets caret.offset stop []

/-- Takes on a step of the cursor and announces it. -/
def withCursor (editor : Editor) (step : Cursor × CursorChange) : Editor :=
  { editor with cursor := step.1 }.announceCursor step.2

def setCursor (editor : Editor) (position : Position) : Editor :=
  editor.withCursor (editor.cursor.setCaret position editor.buffer)

def setCursorOffset (editor : Editor) (offset : Nat) : Editor :=
  editor.withCursor (editor.cursor.setCaretOffset offset editor.buffer)

/-- Selects a range, with the caret at its second end. -/
def setSelection (editor : Editor) (range : TextRange) : Editor :=
  editor.withCursor (editor.cursor.setSelection range.start range.stop editor.buffer)

def clearSelection (editor : Editor) : Editor := editor.withCursor editor.cursor.clearSelection

def selectAll (editor : Editor) : Editor :=
  editor.withCursor (editor.cursor.selectAll editor.buffer)

/-- Moves the caret, with the selection if `extend` is set. -/
def moveCursor (editor : Editor) (motion : Motion) (extend : Bool) : Editor :=
  editor.withCursor (editor.cursor.move Grapheme.segmentation motion extend editor.buffer)

def addDecoration (editor : Editor) (decoration : Decoration) : Editor × DecorationId :=
  let (decorations, id) := editor.decorations.add decoration editor.buffer
  ({ editor with decorations }.announceDecorations [.added id], id)

def removeDecoration (editor : Editor) (id : DecorationId) : Editor × Bool :=
  let (decorations, removed) := editor.decorations.remove id
  if removed.isSome then ({ editor with decorations }.announceDecorations [.removed id], true)
  else (editor, false)

def updateDecoration (editor : Editor) (id : DecorationId) (decoration : Decoration) :
    Editor × Except EditorError Unit :=
  match editor.decorations.update id decoration editor.buffer with
  | .ok decorations => ({ editor with decorations }.announceDecorations [.updated id], .ok ())
  | .error error => (editor, .error (.decoration error))

/-- Takes all decorations out; the second result is their number. -/
def clearDecorations (editor : Editor) : Editor × Nat :=
  let count := editor.decorations.size
  let editor := { editor with decorations := editor.decorations.clear }
  (if count > 0 then editor.announceDecorations [.cleared] else editor, count)

/-- Applies a patch to the settings and announces the keys that changed, if there are any. -/
def updateSettings (editor : Editor) (change : Json) :
    Editor × Except EditorError (List String) :=
  match editor.settings.patch change with
  | .ok (settings, changed) =>
    let editor := { editor with settings }
    (if changed.isEmpty then editor else editor.emit (.settings changed), .ok changed)
  | .error error => (editor, .error (.settings error))

end Editor

end HeadlessEditor
