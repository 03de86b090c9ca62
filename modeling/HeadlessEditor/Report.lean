import HeadlessEditor.Extension.Registry
import HeadlessEditor.Text.Quoted

/-!
One-line descriptions for logs.
-/

namespace HeadlessEditor.Report

def record (name : String) (fields : List (String × String)) : String :=
  name ++ " \x7b " ++ ", ".intercalate (fields.map fun (key, value) => key ++ ": " ++ value)
    ++ " \x7d"

def optional {α : Type} (describe : α → String) : Option α → String
  | none => "None"
  | some value => "Some(" ++ describe value ++ ")"

def position (position : Position) : String :=
  record "Position" [("line", toString position.line), ("column", toString position.column),
    ("offset", toString position.offset)]

def selection (selection : Selection) : String :=
  record "Selection" [("anchor", position selection.anchor), ("active", position selection.active)]

def cursor (cursor : Cursor) : String :=
  record "CursorController" [
    ("state", record "CursorState" [
      ("caret", position cursor.caret),
      ("selection", optional selection cursor.selection),
      ("desired_column", optional toString cursor.state.desiredColumn)]),
    ("cached_documents", toString cursor.remembered.size)]

def eventBus (bus : EventBus) : String :=
  record "EventBus" [("subscribers", toString bus.subscribers.length)]

def command (command : Command) : String :=
  record "Command" [("id", Text.quoted command.id), ("title", Text.quoted command.title),
    ("guarded", toString command.guard.isSome)]

def registry (registry : Registry) : String :=
  record "ExtensionRegistry" [
    ("extensions", "[" ++ ", ".intercalate (registry.extensions.keys.map Text.quoted) ++ "]"),
    ("commands", toString registry.commands.size),
    ("bindings", toString registry.keymap.size)]

end HeadlessEditor.Report
