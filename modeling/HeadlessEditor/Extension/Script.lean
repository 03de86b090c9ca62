import HeadlessEditor.Extension.Basic
import HeadlessEditor.Unicode.UpperCase

/-!
Extensions given as data: commands that are lists of actions, operations to carry out on loading and
unloading, and a fixed list of decorations. A scripted extension notes in the journal when it is
set to work and when it is put away.
-/

namespace HeadlessEditor.Script

inductive Guard where
  | hasSelection
  | nonempty
  | never
  | stored (key : String)
  deriving DecidableEq, Repr

def Guard.allows (context : CommandContext) : Guard → Bool
  | hasSelection => context.editor.selection.isSome
  | nonempty => !context.editor.buffer.content.isEmpty
  | never => false
  | stored key => (context.storage.get? key).isSome

inductive Action where
  | operation (operation : Operation)
  /-- Adds one to a count in the storage, which starts at zero. -/
  | increment (key : String)
  | store (key : String) (value : Json)
  | forget (key : String)
  /-- Types the name of the extension in brackets. -/
  | typeName
  /-- Turns the selection into upper case. -/
  | upperCase
  | fail (message : String)

def Action.run (id : String) (context : CommandContext) :
    Action → CommandContext × Except CommandError Unit
  | operation op =>
    let (editor, result) := context.editor.perform op
    ({ context with editor }, (result.mapError CommandError.editor).map fun _ => ())
  | increment key =>
    let count := (context.storage.getAs? Json.count32? key).getD 0
    ({ context with storage := context.storage.set key (.int (count + 1)) }, .ok ())
  | store key value => ({ context with storage := context.storage.set key value }, .ok ())
  | forget key => ({ context with storage := context.storage.remove key }, .ok ())
  | typeName =>
    let name := ['['] ++ context.extension.toList ++ [']']
    ({ context with editor := context.editor.typeText name }, .ok ())
  | upperCase =>
    match context.editor.selectedText with
    | none => (context, .ok ())
    | some text =>
      ({ context with editor := context.editor.typeText (text.flatMap Unicode.upperCase) }, .ok ())
  | fail message => (context, .error (.failed id message))

/-- Carries out actions up to the first that fails. -/
def runActions (id : String) (context : CommandContext) :
    List Action → CommandContext × Except CommandError Unit
  | [] => (context, .ok ())
  | action :: rest =>
    match action.run id context with
    | (context, .ok ()) => runActions id context rest
    | (context, .error error) => (context, .error error)

structure ScriptCommand where
  id : String
  title : String
  guard : Option Guard
  actions : List Action

def ScriptCommand.command (script : ScriptCommand) : Command where
  id := script.id
  title := script.title
  run context := runActions script.id context script.actions
  guard := script.guard.map fun guard context => guard.allows context

inductive StartStep where
  | operation (operation : Operation)
  | fail (message : String)

def runStart (editor : Editor) : List StartStep → Editor × Except ExtensionError Unit
  | [] => (editor, .ok ())
  | .fail message :: _ => (editor, .error (.custom message))
  | .operation op :: rest =>
    match editor.perform op with
    | (editor, .ok _) => runStart editor rest
    | (editor, .error error) => (editor, .error (.custom error.message))

end Script

structure Script where
  name : String
  hooks : List EventKind
  commands : List Script.ScriptCommand
  keys : List (KeyChord × String)
  decorations : Option (List Decoration)
  /-- Whether the class of a decoration tells how often it was asked for. -/
  countPolls : Bool
  start : List Script.StartStep
  stop : List Operation

namespace Script

/-- The decorations at the `n`-th time of asking. -/
def shown (script : Script) (decorations : List Decoration) (n : Nat) : List Decoration :=
  if script.countPolls then
    decorations.map fun decoration =>
      { decoration with className := s!"{decoration.className}#{n}" }
  else decorations

def extension (script : Script) : Extension where
  name := script.name
  hooks := script.hooks
  commands := script.commands.map (·.command)
  keys := script.keys
  provider := script.decorations.map script.shown
  activate editor := runStart (editor.noteCall script.name .activate) script.start
  dispose editor := (editor.noteCall script.name .dispose).performAll script.stop

end Script

end HeadlessEditor
