import HeadlessEditor.Extension.Command
import HeadlessEditor.Keys.Keymap

/-!
Extensions: what can be loaded into an editor and unloaded again. An extension brings commands, key
bindings and decorations, and listens to events of the kinds that it names.
-/

namespace HeadlessEditor

inductive ExtensionError where
  | alreadyLoaded (name : String)
  | notLoaded (name : String)
  | duplicateCommand (extension command : String)
  | activationFailed (extension reason : String)
  /-- What an extension says when it cannot start. -/
  | custom (message : String)
  deriving DecidableEq, Repr

def ExtensionError.message : ExtensionError → String
  | alreadyLoaded name => s!"extension `{name}` is already loaded"
  | notLoaded name => s!"extension `{name}` is not loaded"
  | duplicateCommand extension command =>
    s!"extension `{extension}` registers duplicate command id `{command}`"
  | activationFailed extension reason => s!"extension `{extension}` failed to activate: {reason}"
  | custom message => message

structure Extension where
  name : String
  hooks : List EventKind
  commands : List Command
  keys : List (KeyChord × String)
  /-- The decorations it shows when asked for the `n`-th time, counted from one. -/
  provider : Option (Nat → List Decoration)
  /-- Sets the extension to work. What it did before it failed stays done. -/
  activate : Editor → Editor × Except ExtensionError Unit
  /-- Puts the extension away, also after it failed to start. -/
  dispose : Editor → Editor

/-- An extension that has a name and does nothing. -/
def Extension.bare (name : String) : Extension where
  name
  hooks := []
  commands := []
  keys := []
  provider := none
  activate editor := (editor, .ok ())
  dispose editor := editor

/-- The kinds of events to subscribe an extension to, in the order of all kinds. -/
def Extension.eventKinds (extension : Extension) : List EventKind :=
  EventKind.all.filter extension.hooks.contains

end HeadlessEditor
