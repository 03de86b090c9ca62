import HeadlessEditor.Decoration.Basic
import HeadlessEditor.Document.Buffer

/-!
What an editor announces, and to whom.
-/

namespace HeadlessEditor

inductive EventKind where
  | content
  | selection
  | cursor
  | settings
  | decoration
  deriving DecidableEq, Repr

namespace EventKind

/-- All kinds, in the order in which an extension is subscribed to them. -/
def all : List EventKind := [.content, .selection, .cursor, .settings, .decoration]

def name : EventKind → String
  | content => "content"
  | selection => "selection"
  | cursor => "cursor"
  | settings => "settings"
  | decoration => "decoration"

def ofName? (name : String) : Option EventKind := all.find? (·.name == name)

theorem ofName?_name (kind : EventKind) : ofName? kind.name = some kind := by
  cases kind <;> decide

end EventKind

inductive DecorationChange where
  | added (id : DecorationId)
  | updated (id : DecorationId)
  | removed (id : DecorationId)
  | cleared
  deriving DecidableEq, Repr

inductive Event where
  /-- The text changed by `edit`, or as a whole if that is `none`. -/
  | content (document : DocumentId) (version : Nat) (edit : Option TextEdit)
  | selection (range : Option TextRange)
  | cursor (caret : Position)
  | settings (changed : List String)
  | decoration (change : DecorationChange)
  deriving DecidableEq, Repr

def Event.kind : Event → EventKind
  | content .. => .content
  | selection _ => .selection
  | cursor _ => .cursor
  | settings _ => .settings
  | decoration _ => .decoration

inductive Listener where
  /-- A listener of the host, under a name of its own. -/
  | host (tag : String)
  | extension (name : String)
  | session
  deriving DecidableEq, Repr

abbrev SubscriptionId := Nat

structure Subscriber where
  id : SubscriptionId
  kind : EventKind
  listener : Listener
  deriving DecidableEq, Repr

inductive Phase where
  | activate
  | dispose
  deriving DecidableEq, Repr

inductive Notice where
  /-- An event reached a subscriber. -/
  | delivered (subscriber : Subscriber) (event : Event)
  /-- An extension noted that it was called. -/
  | called (extension : String) (phase : Phase)
  deriving DecidableEq, Repr

end HeadlessEditor
