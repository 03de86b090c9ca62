import HeadlessEditor.Text.Basic

/-!
Where a caret may stand on a line: between the pieces that a reader takes for one character each. Which
these are is for a `Segmentation` to say, which loses nothing of a text and makes no empty pieces.
-/

namespace HeadlessEditor

structure Segmentation where
  clusters : Text → List Text
  flatten : ∀ text, (clusters text).flatten = text
  nonempty : ∀ text, [] ∉ clusters text

namespace Segmentation

/-- The columns where the clusters end, the first of them starting at `column`. -/
def endsFrom (column : Nat) : List Text → List Nat
  | [] => []
  | cluster :: rest => (column + cluster.length) :: endsFrom (column + cluster.length) rest

def boundaries (segmentation : Segmentation) (line : Text) : List Nat :=
  0 :: endsFrom 0 (segmentation.clusters line)

def previousBoundary (segmentation : Segmentation) (line : Text) (column : Nat) : Nat :=
  ((segmentation.boundaries line).takeWhile (· < column)).getLast?.getD 0

def nextBoundary (segmentation : Segmentation) (line : Text) (column : Nat) : Nat :=
  ((segmentation.boundaries line).find? (column < ·)).getD line.length

end Segmentation

end HeadlessEditor
