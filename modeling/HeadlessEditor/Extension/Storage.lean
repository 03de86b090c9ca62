import HeadlessEditor.Json.Basic
import HeadlessEditor.Table

/-!
The values that an extension keeps while it is loaded.
-/

namespace HeadlessEditor

structure Storage where
  values : Table String Json
  deriving Inhabited

namespace Storage

def empty : Storage := ⟨.empty⟩

def size (storage : Storage) : Nat := storage.values.size

def get? (storage : Storage) (key : String) : Option Json := storage.values.get? key

/-- The value of a key, read as something else; `none` also if it cannot be read so. -/
def getAs? {α : Type} (storage : Storage) (read : Json → Option α) (key : String) : Option α :=
  (storage.get? key).bind read

def set (storage : Storage) (key : String) (value : Json) : Storage :=
  ⟨storage.values.insert key value⟩

def remove (storage : Storage) (key : String) : Storage := ⟨storage.values.erase key⟩

end Storage

end HeadlessEditor
