import HeadlessEditor.Json.Basic
import HeadlessEditor.Text.Basic

/-!
Reading numbers. Digits are gathered into a 64-bit word; once it is full, further digits count only
by their place. A number with a point or an exponent is the word as a floating-point number, scaled
by powers of ten in floating-point arithmetic, so that its last digit can differ from the nearest
one. An integer that no word holds is read in the same way.
-/

namespace HeadlessEditor.Json

def maxWord : Nat := 0xffffffffffffffff

/-- Gathers digits until one does not fit any more: the word and the number of digits in it. -/
def gather (word taken : Nat) : List Char → Nat × Nat
  | [] => (word, taken)
  | d :: rest =>
    let next := word * 10 + (d.toNat - '0'.toNat)
    if next ≤ maxWord then gather next (taken + 1) rest else (word, taken)

/-- Scales by a power of ten, by no more than `10 ^ 308` in one step; `none` if too large. A number
divided three times by `10 ^ 308` is zero. -/
def scale : Nat → Float → Int → Option Float
  | 0, x, _ => some x
  | steps + 1, x, exponent =>
    if exponent.natAbs ≤ 308 then
      let power := Float.ofScientific 1 false exponent.natAbs
      if 0 ≤ exponent then
        if (x * power).isInf then none else some (x * power)
      else some (x / power)
    else if x == 0 then some x
    else if 0 ≤ exponent then none
    else scale steps (x / Float.ofScientific 1 false 308) (exponent + 308)

structure NumberText where
  negative : Bool
  whole : List Char
  fraction : Option (List Char)
  /-- Sign and digits of the exponent. -/
  exponent : Option (Bool × List Char)

def digits (text : Text) : List Char × Text := text.span Char.isDigit

/-- Splits a number off a text. `none` if the text does not start with a number, or if a digit is
missing in it or a leading zero too many. -/
def NumberText.read? (text : Text) : Option (NumberText × Text) := do
  let (negative, text) := match text with
    | '-' :: rest => (true, rest)
    | _ => (false, text)
  let (whole, text) := digits text
  if whole.isEmpty || (whole.length > 1 && whole.head? == some '0') then none
  let (fraction, text) ← match text with
    | '.' :: rest =>
      let (fraction, rest) := digits rest
      if fraction.isEmpty then none else some (some fraction, rest)
    | _ => some (none, text)
  let (exponent, text) ← match text with
    | 'e' :: rest | 'E' :: rest =>
      let (down, rest) := match rest with
        | '+' :: rest => (false, rest)
        | '-' :: rest => (true, rest)
        | _ => (false, rest)
      let (exponent, rest) := digits rest
      if exponent.isEmpty then none else some (some (down, exponent), rest)
    | _ => some (none, text)
  return (⟨negative, whole, fraction, exponent⟩, text)

/-- The number whose digits are in `word`, the last of them at `10 ^ place`. -/
def NumberText.real? (number : NumberText) (word : Nat) (place : Int) : Option Float := do
  let down := (number.exponent.map (·.1)).getD false
  let power := ((number.exponent.map (·.2)).getD []).foldl
    (fun n d => n * 10 + (d.toNat - '0'.toNat)) 0
  let x ←
    if power ≥ 0x80000000 then if word ≠ 0 ∧ ¬down then none else some 0.0
    else scale 4 (Float.ofNat word) (if down then place - power else place + power)
  return if number.negative then -x else x

/-- The value of a number; `none` if it is too large for a floating-point number. -/
def NumberText.value? (number : NumberText) : Option Json := do
  let (word, taken) := gather 0 0 number.whole
  let left : Int := number.whole.length - taken
  if left = 0 ∧ number.fraction.isNone ∧ number.exponent.isNone then
    if ¬number.negative then return int word
    if 0 < word ∧ word ≤ 0x8000000000000000 then return int (-word)
  let (word, behind) := gather word 0 (number.fraction.getD [])
  real <$> number.real? word (left - behind)

end HeadlessEditor.Json
