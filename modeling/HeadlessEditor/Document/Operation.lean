import HeadlessEditor.Document.Buffer

/-!
The operations of a document as data: all that changes its text or its line ending.
-/

namespace HeadlessEditor

inductive BufferOperation where
  | setContent (text : Text)
  | insert (offset : Nat) (text : Text)
  | delete (start stop : Nat)
  | replace (start stop : Nat) (text : Text)
  | setEnding (ending : LineEnding)
  deriving DecidableEq, Repr

namespace Buffer

def perform (buffer : Buffer) : BufferOperation → Buffer
  | .setContent text => buffer.setContent text
  | .insert offset text => (buffer.insert offset text).1
  | .delete start stop => (buffer.delete start stop).1
  | .replace start stop text => (buffer.replace start stop text).1
  | .setEnding ending => buffer.setEnding ending

def performAll (buffer : Buffer) (operations : List BufferOperation) : Buffer :=
  operations.foldl perform buffer

end Buffer

end HeadlessEditor
