import HeadlessEditor.Text.Basic

/-!
Edits: one stretch of text replaced by another. Whatever is anchored to an offset (carets,
decorations, tokens) is carried across an edit by `TextEdit.mapOffset` and `TextEdit.mapSpan`. Offsets
of tokens come from outside and may be as large as `maxOffset`. For those the sums are done in machine
numbers, by `TextEdit.mapOffset?` and `TextEdit.mapSpan?`, and a sum that is no machine number has no
result.
-/

namespace HeadlessEditor

inductive Bias where
  | before
  | after
  deriving DecidableEq, Repr

structure TextEdit where
  offset : Nat
  deleted : Text
  inserted : Text
  deriving DecidableEq, Repr, Inhabited

def machineNumber? (n : Int) : Option Nat :=
  if 0 ≤ n ∧ n ≤ maxOffset then some n.toNat else none

def machineSum? (a b : Nat) : Option Nat := machineNumber? (a + b)

def machineDifference? (a b : Nat) : Option Nat := machineNumber? (a - b)

namespace TextEdit

/-- The end of the deleted stretch in the old text, not past `maxOffset` if the stretch starts there
or before. -/
def stop (edit : TextEdit) : Nat :=
  max edit.offset (min (edit.offset + edit.deleted.length) maxOffset)

/-- Whether the edit puts back what it deletes. -/
def isNoop (edit : TextEdit) : Bool := edit.deleted == edit.inserted

def growth (edit : TextEdit) : Int := (edit.inserted.length : Int) - edit.deleted.length

/-- Where an offset of the old text is in the new one. Offsets on the edited stretch go to its
start or past the inserted text, as `bias` says. -/
def mapOffset (edit : TextEdit) (offset : Nat) (bias : Bias) : Nat :=
  if offset < edit.offset then offset
  else if offset > edit.stop then offset - edit.deleted.length + edit.inserted.length
  else
    match bias with
    | .before => edit.offset
    | .after => edit.offset + edit.inserted.length

/-- Where the span `[start, stop)` of the old text is in the new one. Its start moves past text
inserted there and its end does not; `none` if the edit deletes all of a non-empty span. -/
def mapSpan (edit : TextEdit) (start stop : Nat) : Option (Nat × Nat) :=
  let newStart := edit.mapOffset start .after
  let newStop := max (edit.mapOffset stop .before) newStart
  if start < stop ∧ newStart = newStop ∧ 0 < edit.deleted.length
      ∧ edit.offset ≤ start ∧ stop ≤ edit.stop then none
  else some (newStart, newStop)

/-- Where an offset goes; `none` if a step leaves the machine numbers. -/
def mapOffset? (edit : TextEdit) (offset : Nat) (bias : Bias) : Option Nat :=
  if offset < edit.offset then some offset
  else if offset > edit.stop then do
    let shortened ← machineDifference? offset edit.deleted.length
    machineSum? shortened edit.inserted.length
  else
    match bias with
    | .before => some edit.offset
    | .after => machineSum? edit.offset edit.inserted.length

/-- Where a span goes, or `some none` if the edit deletes it; `none` if a step leaves the machine
numbers. -/
def mapSpan? (edit : TextEdit) (start stop : Nat) : Option (Option (Nat × Nat)) := do
  let newStart ← edit.mapOffset? start .after
  let mappedStop ← edit.mapOffset? stop .before
  let newStop := max mappedStop newStart
  if start < stop ∧ newStart = newStop ∧ 0 < edit.deleted.length
      ∧ edit.offset ≤ start ∧ stop ≤ edit.stop then return none
  else return some (newStart, newStop)

end TextEdit

end HeadlessEditor
