import HeadlessEditor.Text.Segmentation
import HeadlessEditor.Unicode.ClusterClass

/-!
What a reader takes for one character can be several: a letter and its accents, a flag, a family.
A text is split into such clusters in one pass that keeps, of the text already read, just what
the rules look back at (`Context`).
-/

namespace HeadlessEditor.Grapheme

open Unicode

inductive Conjunct where
  | none
  /-- It ends in a consonant and marks. -/
  | consonant
  /-- It ends in a consonant and marks, a linker among them. -/
  | linked
  deriving DecidableEq, Repr

structure Context where
  last : ClusterClass
  /-- The text ends in an odd number of regional indicators. -/
  halfFlag : Bool
  /-- The text ends in a pictograph and extending characters. -/
  pictograph : Bool
  /-- The text ends in such a pictograph and a joiner. -/
  joinedPictograph : Bool
  conjunct : Conjunct
  deriving DecidableEq, Repr

namespace Context

/-- The context at the start of a text; its class ends no cluster of its own. -/
def start : Context := ⟨.control, false, false, false, .none⟩

def push (before : Context) (c : Char) : Context :=
  let kind := ClusterClass.of c
  { last := kind
    halfFlag := kind == .regionalIndicator && !before.halfFlag
    pictograph := kind == .pictograph || (kind == .extend && before.pictograph)
    joinedPictograph := kind == .zeroWidthJoiner && before.pictograph
    conjunct :=
      if kind = .consonant then .consonant
      else if before.conjunct = .none then .none
      else if isConjunctLinker c then .linked
      else if (kind = .extend ∨ kind = .zeroWidthJoiner) ∧ c ≠ '\u200c' then before.conjunct
      else .none }

/-- Whether a cluster ends between the text so far and a character of class `next`. -/
def breaksBefore (before : Context) (next : ClusterClass) : Bool :=
  match before.last, next with
  | .carriageReturn, .lineFeed => false
  | .carriageReturn, _ | .lineFeed, _ | .control, _ => true
  | _, .carriageReturn | _, .lineFeed | _, .control => true
  | .hangulL, .hangulL | .hangulL, .hangulV | .hangulL, .hangulLV | .hangulL, .hangulLVT => false
  | .hangulLV, .hangulV | .hangulLV, .hangulT | .hangulV, .hangulV | .hangulV, .hangulT => false
  | .hangulLVT, .hangulT | .hangulT, .hangulT => false
  | _, .extend | _, .zeroWidthJoiner | _, .spacingMark => false
  | .prepended, _ => false
  | _, .consonant => before.conjunct != .linked
  | .zeroWidthJoiner, .pictograph => !before.joinedPictograph
  | .regionalIndicator, .regionalIndicator => !before.halfFlag
  | _, _ => true

end Context

/-- Splits the text after `before` into the rest of the cluster that `before` ends in and the
clusters that follow. -/
def splitAfter (before : Context) : Text → Text × List Text
  | [] => ([], [])
  | c :: rest =>
    let (more, others) := splitAfter (before.push c) rest
    if before.breaksBefore (ClusterClass.of c) then ([], (c :: more) :: others)
    else (c :: more, others)

def clusters (text : Text) : List Text := (splitAfter .start text).2

/-- Splitting loses nothing. -/
theorem splitAfter_flatten (before : Context) (text : Text) :
    (splitAfter before text).1 ++ (splitAfter before text).2.flatten = text := by
  induction text generalizing before with
  | nil => rfl
  | cons c rest ih =>
    simp only [splitAfter]
    split <;> simp [ih]

/-- The clusters that follow the first are not empty. -/
theorem ne_nil_of_mem_splitAfter (before : Context) (text : Text) :
    ∀ cluster ∈ (splitAfter before text).2, cluster ≠ [] := by
  induction text generalizing before with
  | nil => simp [splitAfter]
  | cons c rest ih =>
    simp only [splitAfter]
    split
    · simpa using ih (before.push c)
    · exact ih (before.push c)

/-- At the start of a text a cluster begins. -/
theorem splitAfter_start (text : Text) : (splitAfter .start text).1 = [] := by
  cases text with
  | nil => rfl
  | cons c rest =>
    have hbreak : Context.start.breaksBefore (ClusterClass.of c) = true := by
      cases ClusterClass.of c <;> rfl
    simp [splitAfter, hbreak]

theorem clusters_flatten (text : Text) : (clusters text).flatten = text := by
  have hsplit := splitAfter_flatten .start text
  rwa [splitAfter_start, List.nil_append] at hsplit

theorem nil_notMem_clusters (text : Text) : [] ∉ clusters text :=
  fun h => ne_nil_of_mem_splitAfter .start text [] h rfl

def segmentation : Segmentation := ⟨clusters, clusters_flatten, nil_notMem_clusters⟩

end HeadlessEditor.Grapheme
