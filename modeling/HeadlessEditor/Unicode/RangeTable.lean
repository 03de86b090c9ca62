/-!
Sets of characters given as closed ranges of code points, in increasing order and apart, with
membership by halving. The tables of this folder are of Unicode 17 unless they name another version.
-/

namespace HeadlessEditor.Unicode

/-- Closed ranges of code points, in increasing order and apart. -/
abbrev RangeTable := Array (Nat × Nat)

namespace RangeTable

/-- Looks for a range around `code` among those with index in `[lo, hi)`. -/
def search (table : RangeTable) (code : Nat) : Nat → Nat → Nat → Bool
  | 0, _, _ => false
  | steps + 1, lo, hi =>
    if lo < hi then
      let middle := (lo + hi) / 2
      match table[middle]? with
      | none => false
      | some (first, last) =>
        if code < first then search table code steps lo middle
        else if last < code then search table code steps (middle + 1) hi
        else true
    else false

def contains (table : RangeTable) (c : Char) : Bool :=
  search table c.toNat table.size 0 table.size

end RangeTable

end HeadlessEditor.Unicode
