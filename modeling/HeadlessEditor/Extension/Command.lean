import HeadlessEditor.Editor.Operation
import HeadlessEditor.Extension.Storage

/-!
Commands: named actions on an editor and on the storage of the extension that brought them, with a
guard that can forbid them.
-/

namespace HeadlessEditor

inductive CommandError where
  | unknown (id : String)
  | editor (error : EditorError)
  /-- The command itself gave up. -/
  | failed (id message : String)
  deriving DecidableEq, Repr

def CommandError.message : CommandError → String
  | unknown id => s!"unknown command `{id}`"
  | editor error => error.message
  | failed id message => s!"command `{id}` failed: {message}"

structure CommandContext where
  editor : Editor
  storage : Storage
  extension : String

/-- A named action. What it did before it failed stays done. -/
structure Command where
  id : String
  title : String
  run : CommandContext → CommandContext × Except CommandError Unit
  guard : Option (CommandContext → Bool)

namespace Command

/-- Whether the guard allows the command; without one it always does. -/
def isEnabled (command : Command) (context : CommandContext) : Bool :=
  match command.guard with
  | none => true
  | some guard => guard context

/-- A command that changes the editor and nothing else. -/
def onEditor (id title : String) (change : Editor → Editor) : Command where
  id
  title
  run context := ({ context with editor := change context.editor }, .ok ())
  guard := none

end Command

end HeadlessEditor
