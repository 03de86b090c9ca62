import HeadlessEditor.Proofs.Announcements
import HeadlessEditor.Proofs.Recency

/-!
Where the caret goes when a document is opened. A run is cut into the stays at its documents, each of
which an opening ends, also one of the document that is open. The remembered carets are those of the
latest stays, as many as there is room for, and a stay counts as used once more when its document is
opened again, while the caret that the next opening stores there is not yet known.
-/

namespace HeadlessEditor

structure Visit where
  document : DocumentId
  caret : Position
  deriving DecidableEq, Repr

namespace Visit

/-- Stays as uses of the memory, the latest first. -/
def uses (visits : List Visit) : List (DocumentId × Position) :=
  (visits.map fun visit => (visit.document, visit.caret)).reverse

theorem keysOf_uses (visits : List Visit) :
    RecencyCache.keysOf (uses visits) = (visits.map document).reverse := by
  simp [uses, RecencyCache.keysOf, List.map_reverse, Function.comp_def]

theorem uses_cons (visit : Visit) (visits : List Visit) :
    uses (visit :: visits) = uses visits ++ [(visit.document, visit.caret)] := by
  simp [uses]

theorem uses_split (earlier : List Visit) (visit : Visit) (since : List Visit) :
    uses (earlier ++ visit :: since)
      = uses since ++ (visit.document, visit.caret) :: uses earlier := by
  simp [uses]

end Visit

namespace Cursor

/-- The memory between two openings: the carets of the documents left, the open one touched. -/
def Remembers (cursor : Cursor) (room : Nat) (left : List (DocumentId × Position))
    (current : DocumentId) : Prop :=
  ∃ memory : RecencyCache DocumentId Position,
    memory.Holds room left ∧ cursor.remembered = memory.touch current

/-- Leaving a document stores its caret, also where that is skipped because it is there. -/
theorem Remembers.remember {cursor : Cursor} {room : Nat} {left : List (DocumentId × Position)}
    {current : DocumentId} (h : cursor.Remembers room left current) :
    (cursor.remember current).1.remembered.Holds room ((current, cursor.caret) :: left) := by
  obtain ⟨memory, hholds, htouched⟩ := h
  unfold Cursor.remember
  rw [htouched]
  split
  · rename_i hknown
    rw [htouched]
    exact hholds.touch_of_peek? hknown
  · exact hholds.put_touch current cursor.caret

/-- A change of documents: what was remembered before, with the caret of the document left, decides
on the caret, and is remembered after. -/
theorem Remembers.swapDocument {cursor : Cursor} {room : Nat}
    {left : List (DocumentId × Position)} {current : DocumentId}
    (h : cursor.Remembers room left current) (incoming : DocumentId) (buffer : Buffer) :
    let ended := (current, cursor.caret) :: left
    let swapped := (cursor.swapDocument (some current) incoming buffer).1
    swapped.Remembers room ended incoming ∧
    swapped.caret
      = ((RecencyCache.recalled room ended incoming).map buffer.clampPosition).getD .zero := by
  intro ended swapped
  constructor
  · exact ⟨(cursor.remember current).1.remembered, h.remember, rfl⟩
  · change ((((cursor.remember current).1.remembered).peek? incoming).map _).getD _ = _
    rw [h.remember.peek?_eq]

end Cursor

namespace Editor

variable {editor : Editor}

/-- The stays of a run from `editor` on, in their order; the last one is still going on. -/
def visits (editor : Editor) : List Operation → List Visit
  | [] => [⟨editor.document, editor.caret⟩]
  | operation :: rest =>
    let later := (editor.perform operation).1.visits rest
    match operation with
    | .openDocument _ _ => ⟨editor.document, editor.caret⟩ :: later
    | _ => later

def Remembers (editor : Editor) (room : Nat) (left : List (DocumentId × Position)) : Prop :=
  editor.cursor.Remembers room left editor.document

theorem new_remembers (document : DocumentId) (text : Text) (settings : Settings) :
    (new document text settings).Remembers settings.cursor.positionCacheCapacity [] :=
  ⟨.new settings.cursor.positionCacheCapacity, RecencyCache.new_holds _, rfl⟩

/-- Only an opening changes what is remembered. -/
theorem Remembers.perform {room : Nat} {left : List (DocumentId × Position)}
    (h : editor.Remembers room left) {operation : Operation}
    (hopens : ∀ document text, operation ≠ .openDocument document text) :
    (editor.perform operation).1.Remembers room left := by
  unfold Remembers Cursor.Remembers at h ⊢
  cases hreframes : operation.reframes with
  | false =>
    have hframe := editor.perform_sameFrame hreframes
    rw [hframe.document, hframe.remembered]
    exact h
  | true =>
    cases operation with
    | openDocument document text => exact absurd rfl (hopens document text)
    | updateSettings change =>
      obtain ⟨settings, events, hafter⟩ := editor.updateSettings_eq change
      simp only [Editor.perform, hafter]
      exact h
    | _ => cases hreframes

/-- An opening, after which the stay at the document left is over. -/
theorem Remembers.openDocument {room : Nat} {left : List (DocumentId × Position)}
    (h : editor.Remembers room left) (document : DocumentId) (text : Text) :
    let ended := (editor.document, editor.caret) :: left
    let opened := editor.openDocument document text
    opened.Remembers room ended ∧
    opened.caret = ((RecencyCache.recalled room ended document).map
      (Buffer.load text).clampPosition).getD .zero := by
  simp only [openDocument_eq]
  exact Cursor.Remembers.swapDocument h document (Buffer.load text)

/-- An opening after a run: the stays of the run are all that counts. -/
theorem Remembers.openDocument_performAll {room : Nat} {left : List (DocumentId × Position)}
    (h : editor.Remembers room left) (operations : List Operation) (document : DocumentId)
    (text : Text) :
    ((editor.performAll operations).openDocument document text).caret
      = ((RecencyCache.recalled room (Visit.uses (editor.visits operations) ++ left)
          document).map (Buffer.load text).clampPosition).getD .zero := by
  induction operations generalizing editor left with
  | nil => exact (h.openDocument document text).2
  | cons operation rest ih =>
    by_cases hopens : ∃ other content, operation = .openDocument other content
    · obtain ⟨other, content, rfl⟩ := hopens
      have hnext := ih (h.openDocument other content).1
      rw [visits, Visit.uses_cons, List.append_assoc]
      exact hnext
    · have hkept := h.perform fun other content heq => hopens ⟨other, content, heq⟩
      have hvisits : editor.visits (operation :: rest)
          = (editor.perform operation).1.visits rest := by
        rw [visits]
        intro other content heq
        exact hopens ⟨other, content, heq⟩
      rw [hvisits]
      exact ih hkept

/-- Opening a document that was left before leads back to the caret of its latest stay, as far as the
new text goes, unless as many other documents as there is room for were opened since; otherwise, and
for a document not seen before, it leads to the start. -/
theorem openDocument_returns (document : DocumentId) (text : Text) (settings : Settings)
    (operations : List Operation) (entered : DocumentId) (incoming : Text) :
    let visits := (new document text settings).visits operations
    let opened :=
      ((new document text settings).performAll operations).openDocument entered incoming
    (∀ earlier visit since, visits = earlier ++ visit :: since → visit.document = entered →
      entered ∉ since.map Visit.document →
      opened.caret =
        if (since.map Visit.document).toFinset.card < max settings.cursor.positionCacheCapacity 1
        then (Buffer.load incoming).positionAt visit.caret.line visit.caret.column
        else .zero) ∧
    (entered ∉ visits.map Visit.document → opened.caret = .zero) := by
  have hcaret :=
    (new_remembers document text settings).openDocument_performAll operations entered incoming
  rw [List.append_nil] at hcaret
  constructor
  · rintro earlier visit since hsplit rfl hsince
    have hkey : visit.document ∉ RecencyCache.keysOf (Visit.uses since) := by
      rwa [Visit.keysOf_uses, List.mem_reverse]
    rw [hcaret, hsplit, Visit.uses_split, RecencyCache.recalled_append hkey,
      Visit.keysOf_uses, List.toFinset_reverse]
    split
    · rfl
    · rfl
  · intro hnew
    have hkey : entered ∉ RecencyCache.keysOf
        (Visit.uses ((new document text settings).visits operations)) := by
      rwa [Visit.keysOf_uses, List.mem_reverse]
    rw [hcaret, RecencyCache.recalled_of_notMem hkey]
    rfl

def withRoom (room : Nat) : Settings :=
  { Settings.default with
    cursor := { Settings.default.cursor with positionCacheCapacity := room } }

/-- One other document in between: with room for two the caret comes back, with room for one it is
lost. -/
theorem openDocument_returns_from_one_other :
    let away : List Operation := [.setCursorOffset 2, .openDocument "b.txt" ['x']]
    let back (room : Nat) : Editor :=
      ((new "a.txt" ['a', 'b', 'c'] (withRoom room)).performAll away).openDocument "a.txt"
        ['a', 'b', 'c', 'd']
    (back 2).caret = ⟨0, 2, 2⟩ ∧ (back 0).caret = .zero := by
  intro away back
  have stays : ∀ room ∈ [2, 0],
      (new "a.txt" ['a', 'b', 'c'] (withRoom room)).visits away
        = [] ++ ⟨"a.txt", ⟨0, 2, 2⟩⟩ :: [⟨"b.txt", .zero⟩] := by decide
  have returns (room : Nat) (hroom : room ∈ [2, 0]) :=
    (openDocument_returns "a.txt" ['a', 'b', 'c'] (withRoom room) away "a.txt"
      ['a', 'b', 'c', 'd']).1 [] _ _ (stays room hroom) rfl (by decide)
  constructor
  · exact (returns 2 (by decide)).trans (by decide)
  · exact (returns 0 (by decide)).trans (by decide)

end Editor

end HeadlessEditor
