import HeadlessEditor.Text.Basic
import HeadlessEditor.Unicode.Blank
import HeadlessEditor.Unicode.UpperCase

/-!
Key chords such as `ctrl+shift+k`: modifiers and one key. The parts may come in any order, in upper
or lower case, with blanks around them and under several names; a chord has one normal form, in
which it is written. A chord that ends in two plus signs has the plus key.
-/

namespace HeadlessEditor

structure Modifiers where
  ctrl : Bool
  alt : Bool
  shift : Bool
  super : Bool
  deriving DecidableEq, Repr, Inhabited

namespace Modifiers

def none : Modifiers := ⟨false, false, false, false⟩

/-- The modifiers as bits, in the order in which they are written. -/
def bits (modifiers : Modifiers) : Nat :=
  modifiers.ctrl.toNat + 2 * modifiers.alt.toNat + 4 * modifiers.shift.toNat
    + 8 * modifiers.super.toNat

def union (a b : Modifiers) : Modifiers :=
  ⟨a.ctrl || b.ctrl, a.alt || b.alt, a.shift || b.shift, a.super || b.super⟩

/-- The modifier that a name in lower case stands for. -/
def named? : String → Option Modifiers
  | "ctrl" | "control" => some { none with ctrl := true }
  | "alt" | "option" | "opt" => some { none with alt := true }
  | "shift" => some { none with shift := true }
  | "meta" | "cmd" | "command" | "super" | "win" => some { none with super := true }
  | _ => Option.none

def names (modifiers : Modifiers) : List String :=
  [(modifiers.ctrl, "Ctrl"), (modifiers.alt, "Alt"), (modifiers.shift, "Shift"),
    (modifiers.super, "Meta")].filterMap fun (held, name) => if held then some name else Option.none

end Modifiers

structure KeyChord where
  modifiers : Modifiers
  key : String
  deriving DecidableEq, Repr, Inhabited

inductive ChordError where
  | empty
  | missingKey (chord : String)
  | multipleKeys (chord : String)
  deriving DecidableEq, Repr

def ChordError.message : ChordError → String
  | empty => "empty key chord"
  | missingKey chord => s!"key chord `{chord}` has no key"
  | multipleKeys chord => s!"key chord `{chord}` names more than one key"

namespace KeyChord

/-- ASCII letters in lower case, other characters as they are. -/
def lower (text : Text) : Text := text.map Char.toLower

/-- The key that a name of several letters, in lower case, stands for. -/
def namedKey? : String → Option String
  | "enter" | "return" => some "Enter"
  | "escape" | "esc" => some "Escape"
  | "tab" => some "Tab"
  | "backspace" | "back" => some "Backspace"
  | "delete" | "del" => some "Delete"
  | "space" => some "Space"
  | "up" | "arrowup" => some "ArrowUp"
  | "down" | "arrowdown" => some "ArrowDown"
  | "left" | "arrowleft" => some "ArrowLeft"
  | "right" | "arrowright" => some "ArrowRight"
  | "home" => some "Home"
  | "end" => some "End"
  | "pageup" | "pgup" => some "PageUp"
  | "pagedown" | "pgdown" | "pgdn" => some "PageDown"
  | "insert" | "ins" => some "Insert"
  | _ => none

/-- Whether a text is a number up to 255, as function keys are counted. -/
def isFunctionNumber (text : Text) : Bool :=
  !text.isEmpty && text.all Char.isDigit
    && text.foldl (fun n d => n * 10 + (d.toNat - '0'.toNat)) 0 ≤ 255

def capitalize : Text → Text
  | [] => []
  | c :: rest => Unicode.upperCase c ++ rest

/-- The normal form of a key: one character in upper case, a known name, a function key, or any
other name with a capital. -/
def normalizeKey (key : Text) : String :=
  match key with
  | [c] => String.ofList (Unicode.upperCase c)
  | key =>
    let key := lower key
    match namedKey? (String.ofList key) with
    | some name => name
    | none =>
      match key with
      | 'f' :: number =>
        if isFunctionNumber number then String.ofList ('F' :: number)
        else String.ofList (capitalize key)
      | key => String.ofList (capitalize key)

def of (modifiers : Modifiers) (key : String) : KeyChord := ⟨modifiers, normalizeKey key.toList⟩

def trim (text : Text) : Text :=
  ((text.dropWhile Unicode.isBlank).reverse.dropWhile Unicode.isBlank).reverse

def pieces : Text → List Text
  | [] => [[]]
  | c :: rest =>
    if c = '+' then [] :: pieces rest
    else
      match pieces rest with
      | [] => [[c]]
      | first :: others => (c :: first) :: others

/-- Takes the plus key off a trimmed chord: what is left, and whether it was there. -/
def splitPlus (trimmed : Text) : Text × Bool :=
  if trimmed = ['+'] then ([], true)
  else
    match trimmed.reverse with
    | '+' :: '+' :: rest => (rest.reverse, true)
    | _ => (trimmed, false)

/-- Adds one part to the modifiers and the key found so far; `none` for a second key. -/
def addPart? (found : Modifiers × Option Text) (part : Text) :
    Option (Modifiers × Option Text) :=
  match Modifiers.named? (String.ofList (lower part)) with
  | some modifier => some (found.1.union modifier, found.2)
  | none => if found.2.isSome then none else some (found.1, some part)

def parse (chord : String) : Except ChordError KeyChord :=
  let trimmed := trim chord.toList
  if trimmed.isEmpty then .error .empty
  else
    let (body, plus) := splitPlus trimmed
    let parts := ((pieces body).map trim).filter (!·.isEmpty)
    match parts.foldlM addPart? (.none, if plus then some ['+'] else none) with
    | none => .error (.multipleKeys chord)
    | some (_, none) => .error (.missingKey chord)
    | some (modifiers, some key) => .ok ⟨modifiers, normalizeKey key⟩

def display (chord : KeyChord) : String :=
  String.join (chord.modifiers.names.map (· ++ "+")) ++ chord.key

/-- By modifiers, then by key. -/
def before (a b : KeyChord) : Bool :=
  a.modifiers.bits < b.modifiers.bits
    || (a.modifiers.bits == b.modifiers.bits && !(b.key < a.key))

end KeyChord

end HeadlessEditor
