import HeadlessEditor.Extension.Basic

/-!
The editing commands that come with the editor: moving, selecting, deleting and typing of newlines
and indents, with their usual chords. They are an extension like any other.
-/

namespace HeadlessEditor.CoreEditing

structure MotionKey where
  suffixName : String
  title : String
  motion : Motion
  modifiers : Modifiers
  key : String

def ctrl : Modifiers := { Modifiers.none with ctrl := true }

def shift : Modifiers := { Modifiers.none with shift := true }

def motions : List MotionKey := [
  ⟨"left", "Left", .left, .none, "ArrowLeft"⟩,
  ⟨"right", "Right", .right, .none, "ArrowRight"⟩,
  ⟨"up", "Up", .up, .none, "ArrowUp"⟩,
  ⟨"down", "Down", .down, .none, "ArrowDown"⟩,
  ⟨"lineStart", "Line Start", .lineStart, .none, "Home"⟩,
  ⟨"lineEnd", "Line End", .lineEnd, .none, "End"⟩,
  ⟨"documentStart", "Document Start", .documentStart, ctrl, "Home"⟩,
  ⟨"documentEnd", "Document End", .documentEnd, ctrl, "End"⟩]

/-- The commands that move the caret and that extend the selection. -/
def motionCommands (entry : MotionKey) : List Command := [
  .onEditor s!"cursor.{entry.suffixName}" s!"Cursor {entry.title}"
    (·.moveCursor entry.motion false),
  .onEditor s!"selection.{entry.suffixName}" s!"Select {entry.title}"
    (·.moveCursor entry.motion true)]

/-- The commands besides motions. -/
def editCommands : List Command := [
  .onEditor "selection.all" "Select All" (·.selectAll),
  { Command.onEditor "selection.clear" "Clear Selection" (·.clearSelection) with
    guard := some fun context => context.editor.selection.isSome },
  .onEditor "edit.deleteLeft" "Delete Left" (·.deleteBackward),
  .onEditor "edit.deleteRight" "Delete Right" (·.deleteForward),
  .onEditor "edit.newline" "New Line" (·.typeText ['\n']),
  .onEditor "edit.indent" "Indent" fun editor => editor.typeText editor.settings.indentUnit]

/-- The chords of a motion, with shift for extending the selection. -/
def motionKeys (entry : MotionKey) : List (KeyChord × String) := [
  (.of entry.modifiers entry.key, s!"cursor.{entry.suffixName}"),
  (.of (entry.modifiers.union shift) entry.key, s!"selection.{entry.suffixName}")]

def editKeys : List (KeyChord × String) := [
  (.of .none "Backspace", "edit.deleteLeft"),
  (.of .none "Delete", "edit.deleteRight"),
  (.of .none "Enter", "edit.newline"),
  (.of .none "Tab", "edit.indent"),
  (.of .none "Escape", "selection.clear"),
  (.of ctrl "a", "selection.all")]

def extension : Extension :=
  { Extension.bare "core.editing" with
    commands := motions.flatMap motionCommands ++ editCommands
    keys := motions.flatMap motionKeys ++ editKeys }

end HeadlessEditor.CoreEditing
