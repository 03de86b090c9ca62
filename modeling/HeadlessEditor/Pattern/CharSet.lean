import HeadlessEditor.Unicode.Blank
import HeadlessEditor.Unicode.DecimalDigit
import HeadlessEditor.Unicode.WordChar

/-!
Sets of characters. The same set can be described in several ways; its ranges in increasing order,
with a gap between each two, are the same for all of them and make up its normal form.
-/

namespace HeadlessEditor

inductive CharSet where
  | one (c : Char)
  | range (lo hi : Char)
  | digit
  | blank
  | word
  | union (a b : CharSet)
  | complement (a : CharSet)
  | empty
  deriving DecidableEq, Repr

namespace CharSet

def contains : CharSet → Char → Bool
  | one d, c => c == d
  | range lo hi, c => lo ≤ c && c ≤ hi
  | digit, c => Unicode.isDecimalDigit c
  | blank, c => Unicode.isBlank c
  | word, c => Unicode.isWordChar c
  | union a b, c => a.contains c || b.contains c
  | complement a, c => !a.contains c
  | empty, _ => false

def ofString (s : String) : CharSet := s.toList.foldr (fun c set => union (one c) set) empty

/-- The first code point of a character behind `c`. Surrogates are no characters. -/
def codeAfter (c : Char) : Nat := if c = '\ud7ff' then 0xe000 else c.toNat + 1

/-- The last character before `c`, which is not the first one. -/
def charBefore (c : Char) : Char := if c = '\ue000' then '\ud7ff' else Char.ofNat (c.toNat - 1)

/-- Adds a range to ranges in increasing order. Those that it meets become one with it. -/
def insertRange (lo hi : Char) : List (Char × Char) → List (Char × Char)
  | [] => [(lo, hi)]
  | (first, last) :: rest =>
    if codeAfter hi < first.toNat then (lo, hi) :: (first, last) :: rest
    else if codeAfter last < lo.toNat then (first, last) :: insertRange lo hi rest
    else insertRange (if lo ≤ first then lo else first) (if hi ≤ last then last else hi) rest

/-- What ranges in increasing order leave out from a code point on. -/
def gaps (start : Nat) : List (Char × Char) → List (Char × Char)
  | [] => if start ≤ 0x10ffff then [(Char.ofNat start, Char.ofNat 0x10ffff)] else []
  | (lo, hi) :: rest =>
    if start < lo.toNat then (Char.ofNat start, charBefore lo) :: gaps (codeAfter hi) rest
    else gaps (codeAfter hi) rest

def tableRanges (table : Unicode.RangeTable) : List (Char × Char) :=
  table.toList.foldr (fun (lo, hi) => insertRange (Char.ofNat lo) (Char.ofNat hi)) []

/-- The ranges of a set in increasing order, with a gap between each two. -/
def ranges : CharSet → List (Char × Char)
  | one c => [(c, c)]
  | range lo hi => if lo ≤ hi then [(lo, hi)] else []
  | digit => tableRanges Unicode.decimalDigitRanges
  | blank => tableRanges Unicode.blankRanges
  | word => tableRanges Unicode.wordRanges
  | union a b => a.ranges.foldr (fun (lo, hi) => insertRange lo hi) b.ranges
  | complement a => gaps 0 a.ranges
  | empty => []

def ofRange (lo hi : Char) : CharSet := if lo = hi then one lo else range lo hi

def ofRanges : List (Char × Char) → CharSet
  | [] => empty
  | [(lo, hi)] => ofRange lo hi
  | (lo, hi) :: rest => union (ofRange lo hi) (ofRanges rest)

/-- The form that a set has in common with all its other descriptions. -/
def normal (set : CharSet) : CharSet := ofRanges set.ranges

end CharSet

end HeadlessEditor
