/-!
What geometry asks of the numbers it measures pixels with. Programs run on binary floating point;
statements about the geometry can be read with exact numbers as well.
-/

namespace HeadlessEditor

/-- Numbers for pixel geometry. Comparisons are false where a side is not a number. -/
class Pixel (α : Type) extends Add α, Sub α, Mul α, Div α where
  ofNat : Nat → α
  ofFloat : Float → α
  isNaN : α → Bool
  less : α → α → Bool
  /-- The largest whole number not above, moved into `[0, maxOffset]`. -/
  floorNat : α → Nat
  /-- The smallest whole number not below, moved into `[0, maxOffset]`. -/
  ceilNat : α → Nat

namespace Pixel

variable {α : Type} [Pixel α]

def zero : α := ofNat 0

/-- The larger of two numbers, or the one that is a number. -/
def larger (a b : α) : α :=
  if isNaN a then b else if isNaN b then a else if less a b then b else a

/-- The nearest number in `[0, limit]`; zero for what is not a number. -/
def within (limit a : α) : α :=
  if isNaN a then zero else if less a zero then zero else if less limit a then limit else a

instance : Pixel Float where
  ofNat := Float.ofNat
  ofFloat x := x
  isNaN := Float.isNaN
  less a b := a < b
  floorNat x := x.floor.toUInt64.toNat
  ceilNat x := x.ceil.toUInt64.toNat

end Pixel

end HeadlessEditor
