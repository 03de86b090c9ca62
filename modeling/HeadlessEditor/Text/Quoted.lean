import HeadlessEditor.Text.Basic
import HeadlessEditor.Unicode.GraphemeExtend
import HeadlessEditor.Unicode.Unprintable

/-!
Quoted text for logs. Quotes, backslashes, controls, marks that would join the character before
them, and characters without a glyph are written as escapes. Half-width sound marks stay as they
are.
-/

namespace HeadlessEditor.Text

def hexDigits (n : Nat) : List Char := Nat.toDigits 16 n

def quotedChar (c : Char) : List Char :=
  match c with
  | '\x00' => ['\\', '0']
  | '\t' => ['\\', 't']
  | '\r' => ['\\', 'r']
  | '\n' => ['\\', 'n']
  | '"' => ['\\', '"']
  | '\\' => ['\\', '\\']
  | c =>
    if 0x20 ≤ c.toNat && c.toNat < 0x7f then [c]
    else if Unicode.isHalfWidthSoundMark c then [c]
    else if Unicode.isGraphemeExtend c || Unicode.isUnprintable c then
      ['\\', 'u', '\x7b'] ++ hexDigits c.toNat ++ ['\x7d']
    else [c]

def quoted (s : String) : String :=
  String.ofList (['"'] ++ s.toList.flatMap quotedChar ++ ['"'])

end HeadlessEditor.Text
