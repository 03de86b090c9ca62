import HeadlessEditor.Document.Position

/-!
Decorations: styled stretches of a document.
-/

namespace HeadlessEditor

inductive DecorationKind where
  /-- Styles the characters it covers. -/
  | inline
  /-- Fills every line it touches. -/
  | line
  /-- Puts a mark beside every line it touches. -/
  | gutter
  /-- Floats over the text at its start. -/
  | overlay
  deriving DecidableEq, Repr

namespace DecorationKind

def all : List DecorationKind := [.inline, .line, .gutter, .overlay]

def name : DecorationKind → String
  | inline => "inline"
  | line => "line"
  | gutter => "gutter"
  | overlay => "overlay"

def ofName? (name : String) : Option DecorationKind := all.find? (·.name == name)

theorem ofName?_name (kind : DecorationKind) : ofName? kind.name = some kind := by
  cases kind <;> decide

end DecorationKind

structure Decoration where
  kind : DecorationKind
  range : TextRange
  className : String
  content : Option String
  deriving DecidableEq, Repr

abbrev DecorationId := Nat

inductive DecorationError where
  | unknown (id : DecorationId)
  deriving DecidableEq, Repr

def DecorationError.message : DecorationError → String
  | unknown id => s!"unknown decoration id DecorationId({id})"

end HeadlessEditor
