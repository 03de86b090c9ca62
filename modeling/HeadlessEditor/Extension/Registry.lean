import HeadlessEditor.Extension.Basic

/-!
The loaded extensions with their commands, key bindings and storages. Loading is all or nothing: an
extension that fails to start is put away, and commands, bindings and storage are as before. What it
did to the editor in the meantime is its own business.
-/

namespace HeadlessEditor

structure LoadedExtension where
  extension : Extension
  subscriptions : List SubscriptionId
  /-- How often its decorations were asked for. -/
  polls : Nat

structure RegisteredCommand where
  command : Command
  owner : String

inductive DispatchOutcome where
  | unbound
  | guardRejected (command : String)
  | executed (command : String)
  deriving DecidableEq, Repr

def DispatchOutcome.ran : DispatchOutcome → Bool
  | executed _ => true
  | _ => false

/-- Loaded extensions in the order of loading, and what they brought. -/
structure Registry where
  extensions : Table String LoadedExtension
  commands : Table String RegisteredCommand
  keymap : Keymap
  storages : Table String Storage

namespace Registry

def empty : Registry := ⟨.empty, .empty, .empty, .empty⟩

def isLoaded (registry : Registry) (name : String) : Bool := registry.extensions.contains name

def command? (registry : Registry) (id : String) : Option Command :=
  (registry.commands.get? id).map (·.command)

def commandIds (registry : Registry) : List String :=
  registry.commands.keys.mergeSort fun a b => !(b < a)

/-- The first command of a list whose id is in use, or stands earlier in the list. -/
def duplicate? (inUse : String → Bool) (seen : List String) : List Command → Option String
  | [] => none
  | command :: rest =>
    if inUse command.id || seen.contains command.id then some command.id
    else duplicate? inUse (command.id :: seen) rest

def addCommands (commands : Table String RegisteredCommand) (owner : String) :
    List Command → Table String RegisteredCommand
  | [] => commands
  | command :: rest => addCommands (commands.insert command.id ⟨command, owner⟩) owner rest

def removeCommands (commands : Table String RegisteredCommand) :
    List String → Table String RegisteredCommand
  | [] => commands
  | id :: rest => removeCommands (commands.erase id) rest

/-- Binds keys for an owner. The second result lists, for each chord, the binding it had just
before; the last chord comes first. -/
def bindKeys (keymap : Keymap) (owner : String)
    (displaced : List (KeyChord × Option Binding)) :
    List (KeyChord × String) → Keymap × List (KeyChord × Option Binding)
  | [] => (keymap, displaced)
  | (chord, command) :: rest =>
    bindKeys (keymap.bind chord ⟨command, owner⟩) owner
      ((chord, keymap.resolve? chord) :: displaced) rest

/-- Gives chords back the bindings that they had. -/
def restoreKeys (keymap : Keymap) : List (KeyChord × Option Binding) → Keymap
  | [] => keymap
  | (chord, some binding) :: rest => restoreKeys (keymap.bind chord binding) rest
  | (chord, none) :: rest => restoreKeys (keymap.unbind chord) rest

def subscribeAll (editor : Editor) (listener : Listener) :
    List EventKind → Editor × List SubscriptionId
  | [] => (editor, [])
  | kind :: rest =>
    let (editor, id) := editor.subscribe kind listener
    let (editor, ids) := subscribeAll editor listener rest
    (editor, id :: ids)

def unsubscribeAll (editor : Editor) (ids : List SubscriptionId) : Editor :=
  ids.foldl (fun editor id => (editor.unsubscribe id).1) editor

/-- Loads an extension: enters what it brings, sets it to work and subscribes it to its events. -/
def load (registry : Registry) (extension : Extension) (editor : Editor) :
    Registry × Editor × Except ExtensionError Unit :=
  let name := extension.name
  if registry.isLoaded name then (registry, editor, .error (.alreadyLoaded name))
  else
    match duplicate? registry.commands.contains [] extension.commands with
    | some id => (registry, editor, .error (.duplicateCommand name id))
    | none =>
      let commands := addCommands registry.commands name extension.commands
      let (keymap, displaced) := bindKeys registry.keymap name [] extension.keys
      let storages :=
        if registry.storages.contains name then registry.storages
        else registry.storages.insert name .empty
      match extension.activate editor with
      | (editor, .error error) =>
        ({ registry with
            commands := removeCommands commands (extension.commands.map (·.id))
            keymap := restoreKeys keymap displaced
            storages := storages.erase name },
          extension.dispose editor, .error (.activationFailed name error.message))
      | (editor, .ok ()) =>
        let (editor, subscriptions) := subscribeAll editor (.extension name) extension.eventKinds
        ({ extensions := registry.extensions.insert name ⟨extension, subscriptions, 0⟩
           commands, keymap, storages },
          editor, .ok ())

/-- Unloads an extension: ends its subscriptions, puts it away and takes out what it brought. -/
def unload (registry : Registry) (name : String) (editor : Editor) :
    Registry × Editor × Except ExtensionError Unit :=
  match registry.extensions.get? name with
  | none => (registry, editor, .error (.notLoaded name))
  | some loaded =>
    let editor := loaded.extension.dispose (unsubscribeAll editor loaded.subscriptions)
    ({ extensions := registry.extensions.erase name
       commands := removeCommands registry.commands (loaded.extension.commands.map (·.id))
       keymap := registry.keymap.removeOwner name
       storages := registry.storages.erase name },
      editor, .ok ())

def unloadAll (registry : Registry) (editor : Editor) : List String → Registry × Editor
  | [] => (registry, editor)
  | name :: rest =>
    let (registry, editor, _) := registry.unload name editor
    unloadAll registry editor rest

/-- Unloads everything, the extension loaded last first. -/
def reset (registry : Registry) (editor : Editor) : Registry × Editor :=
  (empty, (registry.unloadAll editor registry.extensions.keys.reverse).2)

/-- Runs a command if its guard allows it. -/
def execute (registry : Registry) (id : String) (editor : Editor) :
    Registry × Editor × Except CommandError DispatchOutcome :=
  match registry.commands.get? id with
  | none => (registry, editor, .error (.unknown id))
  | some registered =>
    let owner := registered.owner
    let context : CommandContext := ⟨editor, (registry.storages.get? owner).getD .empty, owner⟩
    if registered.command.isEnabled context then
      let (context, result) := registered.command.run context
      ({ registry with storages := registry.storages.insert owner context.storage },
        context.editor, result.map fun _ => .executed id)
    else
      ({ registry with storages := registry.storages.insert owner context.storage }, editor,
        .ok (.guardRejected id))

def dispatch (registry : Registry) (chord : KeyChord) (editor : Editor) :
    Registry × Editor × Except CommandError DispatchOutcome :=
  match registry.keymap.resolve? chord with
  | none => (registry, editor, .ok .unbound)
  | some binding => registry.execute binding.command editor

/-- Asks all extensions for their decorations, in the order of loading. -/
def provided (registry : Registry) : Registry × List Decoration :=
  let asked := registry.extensions.entries.map fun (name, loaded) =>
    if loaded.extension.provider.isSome then (name, { loaded with polls := loaded.polls + 1 })
    else (name, loaded)
  let decorations := asked.flatMap fun (_, loaded) =>
    match loaded.extension.provider with
    | none => []
    | some provider => provider loaded.polls
  ({ registry with extensions := ⟨asked⟩ }, decorations)

end Registry

end HeadlessEditor
