import HeadlessEditor.Keys.Chord
import HeadlessEditor.Table

/-!
Which command a chord runs. A chord has one binding at a time; binding it again replaces the old
one.
-/

namespace HeadlessEditor

structure Binding where
  command : String
  owner : String
  deriving DecidableEq, Repr

structure Keymap where
  bindings : Table KeyChord Binding

namespace Keymap

def empty : Keymap := ⟨.empty⟩

def resolve? (keymap : Keymap) (chord : KeyChord) : Option Binding := keymap.bindings.get? chord

/-- Binds a chord in place of any older binding. -/
def bind (keymap : Keymap) (chord : KeyChord) (binding : Binding) : Keymap :=
  ⟨keymap.bindings.insert chord binding⟩

def unbind (keymap : Keymap) (chord : KeyChord) : Keymap := ⟨keymap.bindings.erase chord⟩

def removeOwner (keymap : Keymap) (owner : String) : Keymap :=
  ⟨keymap.bindings.filter fun _ binding => binding.owner != owner⟩

def size (keymap : Keymap) : Nat := keymap.bindings.size

def chordsFor (keymap : Keymap) (command : String) : List KeyChord :=
  (keymap.bindings.filter fun _ binding => binding.command == command).keys.mergeSort
    KeyChord.before

end Keymap

end HeadlessEditor
