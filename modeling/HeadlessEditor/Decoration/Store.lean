import HeadlessEditor.Decoration.Basic
import HeadlessEditor.Document.Buffer
import HeadlessEditor.Table

/-!
Decorations that stay with the document. Ids count up and are never used again; decorations keep
the order in which they were added. Each range is made of places of the current text, its earlier
end first, and follows its characters through edits.
-/

namespace HeadlessEditor

structure DecorationStore where
  lastId : Nat
  items : Table DecorationId Decoration

namespace DecorationStore

def empty : DecorationStore := ⟨0, .empty⟩

/-- A decoration on the nearest places of a document, the earlier one first. -/
def fit (decoration : Decoration) (buffer : Buffer) : Decoration :=
  { decoration with range := (buffer.clampRange decoration.range).normalized }

def size (store : DecorationStore) : Nat := store.items.size

def get? (store : DecorationStore) (id : DecorationId) : Option Decoration := store.items.get? id

def add (store : DecorationStore) (decoration : Decoration) (buffer : Buffer) :
    DecorationStore × DecorationId :=
  let id := store.lastId + 1
  (⟨id, store.items.insert id (fit decoration buffer)⟩, id)

def remove (store : DecorationStore) (id : DecorationId) :
    DecorationStore × Option Decoration :=
  ({ store with items := store.items.erase id }, store.get? id)

def update (store : DecorationStore) (id : DecorationId) (decoration : Decoration)
    (buffer : Buffer) : Except DecorationError DecorationStore :=
  if store.items.contains id then
    .ok { store with items := store.items.insert id (fit decoration buffer) }
  else .error (.unknown id)

def clear (store : DecorationStore) : DecorationStore := { store with items := .empty }

/-- Where an edit leaves a decoration; `none` if it deletes all of its text. -/
def carry (edit : TextEdit) (buffer : Buffer) (decoration : Decoration) : Option Decoration :=
  (edit.mapSpan decoration.range.offsets.1 decoration.range.offsets.2).map fun span =>
    { decoration with range := buffer.rangeOf span.1 span.2 }

/-- Carries all decorations across an edit; `buffer` holds the new text. The second result lists
the decorations whose text the edit deleted. -/
def mapThroughEdit (store : DecorationStore) (edit : TextEdit) (buffer : Buffer) :
    DecorationStore × List DecorationId :=
  let items := store.items.entries.filterMap fun entry =>
    (carry edit buffer entry.2).map (entry.1, ·)
  let removed := store.items.entries.filterMap fun entry =>
    if (carry edit buffer entry.2).isNone then some entry.1 else none
  ({ store with items := ⟨items⟩ }, removed)

/-- Finds all ranges again by their offsets after the whole text was replaced. -/
def rederive (store : DecorationStore) (buffer : Buffer) : DecorationStore :=
  { store with
    items := ⟨store.items.entries.map fun entry =>
      let span := entry.2.range.offsets
      (entry.1, { entry.2 with range := buffer.rangeOf span.1 span.2 })⟩ }

end DecorationStore

end HeadlessEditor
