import HeadlessEditor.Editor.Basic

/-!
The operations of an editor as data: what hosts and extensions can ask of it, and what it answers.
-/

namespace HeadlessEditor

inductive Operation where
  | setContent (text : Text)
  | insert (place : Position) (text : Text)
  | delete (range : TextRange)
  | replace (range : TextRange) (text : Text)
  | typeText (text : Text)
  | deleteBackward
  | deleteForward
  | setCursor (position : Position)
  | setCursorOffset (offset : Nat)
  | setSelection (range : TextRange)
  | clearSelection
  | selectAll
  | moveCursor (motion : Motion) (extend : Bool)
  | addDecoration (decoration : Decoration)
  | removeDecoration (id : DecorationId)
  | updateDecoration (id : DecorationId) (decoration : Decoration)
  | clearDecorations
  | updateSettings (change : Json)
  | openDocument (document : DocumentId) (text : Text)
  | subscribe (kind : EventKind) (tag : String)
  | unsubscribe (id : SubscriptionId)
  | emit (event : Event)
  | decoration (id : DecorationId)
  | setting (path : String)
  | selectedText
  | selection
  | line (index : Nat)
  | positionAt (line column : Nat)
  | positionOf (offset : Nat)
  | textForSaving

inductive Reply where
  | done
  | flag (value : Bool)
  | number (value : Nat)
  | keys (changed : List String)
  | decoration (found : Option Decoration)
  | json (found : Option Json)
  | text (found : Option Text)
  | range (found : Option TextRange)
  | line (found : Option Text) (count : Nat)
  | position (found : Position)

namespace Editor

def perform (editor : Editor) : Operation → Editor × Except EditorError Reply
  | .setContent text => (editor.setContent text, .ok .done)
  | .insert place text => (editor.insert place text, .ok .done)
  | .delete range => (editor.delete range, .ok .done)
  | .replace range text => (editor.replace range text, .ok .done)
  | .typeText text => (editor.typeText text, .ok .done)
  | .deleteBackward => (editor.deleteBackward, .ok .done)
  | .deleteForward => (editor.deleteForward, .ok .done)
  | .setCursor position => (editor.setCursor position, .ok .done)
  | .setCursorOffset offset => (editor.setCursorOffset offset, .ok .done)
  | .setSelection range => (editor.setSelection range, .ok .done)
  | .clearSelection => (editor.clearSelection, .ok .done)
  | .selectAll => (editor.selectAll, .ok .done)
  | .moveCursor motion extend => (editor.moveCursor motion extend, .ok .done)
  | .addDecoration decoration =>
    let (editor, id) := editor.addDecoration decoration
    (editor, .ok (.number id))
  | .removeDecoration id =>
    let (editor, found) := editor.removeDecoration id
    (editor, .ok (.flag found))
  | .updateDecoration id decoration =>
    let (editor, result) := editor.updateDecoration id decoration
    (editor, result.map fun _ => .done)
  | .clearDecorations =>
    let (editor, count) := editor.clearDecorations
    (editor, .ok (.number count))
  | .updateSettings change =>
    let (editor, result) := editor.updateSettings change
    (editor, result.map .keys)
  | .openDocument document text => (editor.openDocument document text, .ok .done)
  | .subscribe kind tag =>
    let (editor, id) := editor.subscribe kind (.host tag)
    (editor, .ok (.number id))
  | .unsubscribe id =>
    let (editor, found) := editor.unsubscribe id
    (editor, .ok (.flag found))
  | .emit event => (editor.emit event, .ok .done)
  | .decoration id => (editor, .ok (.decoration (editor.decorations.get? id)))
  | .setting path => (editor, .ok (.json (editor.settings.get? path)))
  | .selectedText => (editor, .ok (.text editor.selectedText))
  | .selection => (editor, .ok (.range editor.selection))
  | .line index => (editor, .ok (.line (editor.buffer.line? index) editor.buffer.lineCount))
  | .positionAt line column => (editor, .ok (.position (editor.buffer.positionAt line column)))
  | .positionOf offset => (editor, .ok (.position (editor.buffer.positionOf offset)))
  | .textForSaving => (editor, .ok (.text (some editor.buffer.textForSaving)))

def performAll (editor : Editor) : List Operation → Editor
  | [] => editor
  | operation :: rest => (editor.perform operation).1.performAll rest

end Editor

end HeadlessEditor
