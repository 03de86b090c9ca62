import HeadlessEditor.Layout.Pixel
import HeadlessEditor.Text.Basic
import Mathlib

/-!
Pixel geometry with exact numbers: nothing is rounded, nothing overflows, and every number is one.
-/

namespace HeadlessEditor

namespace Pixel

/-- The value of a floating-point number; zero for what is not finite. -/
def valueOf (x : Float) : ℚ :=
  match x.toModel.unpack with
  | .finite sign mantissa exponent _ => sign.apply mantissa * 2 ^ exponent
  | _ => 0

example : valueOf (-8.25) = -33 / 4 := by decide +kernel

/-- Exact numbers. -/
instance : Pixel ℚ where
  ofNat n := n
  ofFloat := valueOf
  isNaN _ := false
  less a b := decide (a < b)
  floorNat x := min ⌊x⌋.toNat maxOffset
  ceilNat x := min ⌈x⌉.toNat maxOffset

@[simp] theorem ofNat_exact (n : Nat) : (ofNat n : ℚ) = n := rfl

@[simp] theorem zero_exact : (zero : ℚ) = 0 := rfl

@[simp] theorem isNaN_exact (a : ℚ) : isNaN a = false := rfl

@[simp] theorem less_exact (a b : ℚ) : less a b = true ↔ a < b := decide_eq_true_iff

theorem larger_exact (a b : ℚ) : larger a b = max a b := by
  simp only [larger, isNaN_exact, Bool.false_eq_true, if_false, less_exact]
  split
  · rename_i h
    exact (max_eq_right_of_lt h).symm
  · rename_i h
    exact (max_eq_left (not_lt.1 h)).symm

theorem within_exact {limit : ℚ} (hlimit : 0 ≤ limit) (a : ℚ) :
    within limit a = max 0 (min a limit) := by
  simp only [within, isNaN_exact, Bool.false_eq_true, if_false, less_exact, zero_exact]
  split
  · rename_i h
    exact (max_eq_left ((min_le_left a limit).trans h.le)).symm
  · rename_i h
    split
    · rename_i hlarge
      rw [min_eq_right hlarge.le, max_eq_right hlimit]
    · rename_i hsmall
      rw [min_eq_left (not_lt.1 hsmall), max_eq_right (not_lt.1 h)]

end Pixel

end HeadlessEditor
